import Hsfs.Daemon.Pointers
import Hsfs.Fuse.Access
import Hsfs.Fuse.Answers
import Hsfs.Fuse.Attributed
import Hsfs.Fuse.Directory
import Hsfs.Fuse.Exclusive
import Hsfs.Fuse.Explained
import Hsfs.Fuse.Truths
import Hsfs.Fuse.Filling
import Hsfs.Fuse.Lookups
import Hsfs.Fuse.NewRef
import Hsfs.Fuse.OnlyCached
import Hsfs.Fuse.Release
import Hsfs.Fuse.Rounds
import Hsfs.Fuse.Setattr
import Hsfs.Fuse.Stale
import Hsfs.Fuse.Transfer
import Hsfs.Fuse.Truncate
import Hsfs.Fuse.Verifiers
import Hsfs.Fuse.Xattr
import Hsfs.Mount.AllOrNothing
import Hsfs.Mount.Blocks
import Hsfs.Mount.Deadline
import Hsfs.Mount.Reassembly
import Hsfs.Mount.Remount
import Hsfs.Mount.Transport
import Hsfs.Mtab.Escapes
import Hsfs.Mtab.LockEnds
import Hsfs.Mtab.Mounts
import Hsfs.Mtab.Truncation
import Hsfs.Nfs3.AclCodec
import Hsfs.Nfs3.AclReports
import Hsfs.Nfs3.AclServer
import Hsfs.Nfs3.Effects
import Hsfs.Nfs3.Handles
import Hsfs.Nfs3.Plus
import Hsfs.Nfs3.Rounding
