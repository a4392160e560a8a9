import Hsfs.Daemon.Network
import Hsfs.Fuse.Session
import Hsfs.Interact.Par
import Hsfs.Nfs3.Quiet

/-!
# Exclusive creation

Two clients create the same file, and each wants to be the one that has created it.  The
server tells them apart by the verifiers they send.  The verifier of `hsi_nfs3_create` is the
number that the client has given the parent directory, so two clients that have given it the
same number cannot be told apart.
-/

namespace Hsfs

open Interact Interact.Act

/-! ## The server -/

/-- The files in each directory: the verifier that a file was created with, if it was created
exclusively. -/
abbrev DirStore := NfsFh → Name → Option (Option UInt64)

namespace DirStore

/-- Enter a file. -/
def enter (s : DirStore) (dir : NfsFh) (name : Name) (verf : Option UInt64) : DirStore :=
  Function.update s dir (Function.update (s dir) name (some verf))

@[simp] theorem enter_self (s : DirStore) (dir : NfsFh) (name : Name) (verf : Option UInt64) :
    s.enter dir name verf dir name = some verf := by
  simp [enter]

/-- A file that is there already is not touched by the entry of one that is not. -/
theorem enter_of_none {s : DirStore} {dir dir' : NfsFh} {name name' : Name}
    {verf verf' : Option UInt64} (h : s dir name = some verf) (h' : s dir' name' = none) :
    s.enter dir' name' verf' dir name = some verf := by
  by_cases hdir : dir = dir'
  · subst hdir
    have hname : name ≠ name' := by
      rintro rfl
      rw [h] at h'
      exact nomatch h'
    rw [enter, Function.update_self, Function.update_of_ne hname, h]
  · rw [enter, Function.update_of_ne hdir, h]

end DirStore

/-- What the server does with a request.  It may refuse any.  No request but `CREATE` changes a
directory in the runs that are considered here. -/
def dirServes : (req : Rpc) → DirStore → req.Res → DirStore → Prop
  | .create dir name (.exclusive verf), s, .ok _, s' =>
      s dir name = none ∧ s' = s.enter dir name (some verf) ∨
        s dir name = some (some verf) ∧ s' = s
  | .create dir name (.guarded _), s, .ok _, s' =>
      s dir name = none ∧ s' = s.enter dir name none
  | .create dir name _, s, .ok _, s' =>
      s dir name = none ∧ s' = s.enter dir name none ∨ s dir name ≠ none ∧ s' = s
  | _, s, _, s' => s' = s

/-- The server behind the network. -/
abbrev dirEnv : Server Call Call.Res DirStore := network dirServes

/-- No request changes the verifier of a file. -/
theorem dirServes_keeps {dir : NfsFh} {name : Name} {verf : Option UInt64} {req : Rpc}
    {s s' : DirStore} {res : req.Res} (h : dirServes req s res s') (hs : s dir name = some verf) :
    s' dir name = some verf := by
  unfold dirServes at h
  split at h
  · rcases h with ⟨hnone, rfl⟩ | ⟨-, rfl⟩
    · exact DirStore.enter_of_none hs hnone
    · exact hs
  · obtain ⟨hnone, rfl⟩ := h
    exact DirStore.enter_of_none hs hnone
  · rcases h with ⟨hnone, rfl⟩ | ⟨-, rfl⟩
    · exact DirStore.enter_of_none hs hnone
    · exact hs
  · exact h ▸ hs

/-- A verifier is there to stay. -/
theorem lasting_verf (dir : NfsFh) (name : Name) (verf : Option UInt64) :
    Par.Lasting dirEnv fun s ↦ s dir name = some verf := by
  intro c s r s' hS hs
  cases c with
  | clntCall clnt req =>
      cases r with
      | done res => exact dirServes_keeps hS hs
      | failed err =>
          rcases hS with rfl | ⟨res, hS⟩
          · exact hs
          · exact dirServes_keeps hS hs
  | openclnt acl | ping clnt | mallocInode fileid fh avoid | malloc =>
      obtain rfl := hS
      exact hs

/-- After a successful exclusive `CREATE`, the file has the verifier of the request. -/
theorem establishes_verf (clnt : Client) (dir : NfsFh) (name : Name) (verf : UInt64)
    (res : Diropres3ok) :
    Par.Establishes dirEnv (fun s ↦ s dir name = some (some verf))
      ⟨.clntCall clnt (.create dir name (.exclusive verf)), .done (.ok res)⟩ := by
  rintro s s' (⟨-, rfl⟩ | ⟨hs, rfl⟩)
  · exact s.enter_self dir name _
  · exact hs

/-! ## The client -/

/-- A request with `O_EXCL` asks for an exclusive creation. -/
theorem createMode_excl (mode : UInt32) {flags : UInt32} (h : hasBits flags oExcl = true) :
    (createMode mode flags &&& 0xF0000) >>> 16 = 2 := by
  have hdistrib (x y z : UInt32) : (x ||| y) &&& z = (x &&& z) ||| (y &&& z) :=
    UInt32.toBitVec_inj.1 BitVec.and_or_distrib_right
  have hperm : (0o777 : UInt32) &&& 0xF0000 = 0 := by decide
  rw [createMode, if_pos h, hdistrib, UInt32.and_assoc, hperm, UInt32.and_zero]
  decide

/-- The verifier of an exclusive creation is the number of the parent. -/
theorem createhow3Of_createMode (parent : Inode) (mode : UInt32) {flags : UInt32}
    (h : hasBits flags oExcl = true) :
    createhow3Of parent (createMode mode flags) = .exclusive parent.ino := by
  rw [createhow3Of, createMode_excl mode h]
  rfl

/-- **Creation succeeds only if `CREATE` is answered with `NFS3_OK`.** -/
theorem wp_hsiNfs3Create {d : Daemon} {p : Addr} {i : Inode} (hi : d.heap p = some i) (name : Name)
    (mode : UInt32) :
    wp Server.record (hsiNfs3Create p name mode)
      (fun r _ es ↦ r.1 = 0 → ∃ clnt res,
        ⟨.clntCall clnt (.create i.fh name (createhow3Of i mode)), .done (.ok res)⟩ ∈ es)
      (fun _ _ _ ↦ True) d [] := by
  unfold hsiNfs3Create sbClntp
  simp only [wp_bind, wp_pure, wp_of_ret (load_run hi), wp_get]
  refine wp_mono ?_ (fun _ _ _ _ ↦ trivial) (wp_call_record _ _ [])
  rintro res d' _ ⟨es, rfl, hcall, -⟩
  cases hcall with
  | error hes herr => exact fun h ↦ absurd h herr
  | reply clnt res hes =>
      cases res with
      | fail status => exact fun h ↦ absurd h (hsiNfs3StatToErrno_ne_zero status.2)
      | ok res =>
          -- whatever follows, the reply stays in the record
          refine wp_mono ?_ (fun _ _ _ _ ↦ trivial)
            (Evolves.of_forall (r := fun _ _ _ ↦ True) (fun _ _ _ ↦ trivial) _ d' _)
          rintro r d'' _ ⟨es', rfl, -⟩ _
          exact ⟨clnt, res, List.mem_append_left _
            (List.mem_append_right _ (List.mem_singleton_self _))⟩

/-- The request is answered with the new file. -/
def Created (d d' : Daemon) : Prop := ∃ e, d'.replies = d.replies ++ [.create e]

/-- A client that is asked to create a file exclusively in the directory `dir`, which it knows by
the number `parent`. -/
structure ExclusiveCreate (dir : NfsFh) (parent : UInt64) where
  daemon : Daemon
  inode : Addr
  i : Inode
  mode : UInt32
  flags : UInt32
  uid : UInt32
  gid : UInt32
  cacheOk : daemon.CacheOk
  found : daemon.ilookup parent = some inode
  live : daemon.heap inode = some i
  fh : i.fh = dir
  excl : hasBits flags oExcl = true

namespace ExclusiveCreate

variable {dir : NfsFh} {parent : UInt64}

/-- What the client does. -/
def run (c : ExclusiveCreate dir parent) (name : Name) :
    Prog Call Call.Res (Except Fault Unit × Daemon) :=
  (hsxFuseCreate parent name c.mode c.flags c.uid c.gid).run c.daemon

/-- The inode of the directory when the operation starts: its owner has been overwritten. -/
def asked (c : ExclusiveCreate dir parent) : Inode :=
  { c.i with iattr := { c.i.iattr with uid := c.uid, gid := c.gid } }

theorem how_asked (c : ExclusiveCreate dir parent) :
    createhow3Of c.asked (createMode c.mode c.flags) = .exclusive parent := by
  have hino : c.i.ino = parent := (Daemon.ino_of_ilookup c.found c.live).2
  rw [createhow3Of_createMode c.asked c.mode c.excl]
  exact congrArg Createhow3.exclusive hino

/-- **A client has success only if the server has accepted the number of the directory as a
verifier.** -/
theorem accepted (c : ExclusiveCreate dir parent) {name : Name} {d' : Daemon} {es : List Event}
    (h : Prog.Exec Server.record (c.run name) [] (.ok (), d') es) (hcreated : Created c.daemon d') :
    ∃ clnt res, ⟨.clntCall clnt (.create dir name (.exclusive parent)), .done (.ok res)⟩ ∈ es := by
  have hi : (c.daemon.setInode c.inode c.asked).heap c.inode = some c.asked :=
    Daemon.setInode_heap_self ..
  have hwp : wp Server.record (hsxFuseCreate parent name c.mode c.flags c.uid c.gid)
      (fun _ d' es ↦ Created c.daemon d' → ∃ clnt res,
        ⟨.clntCall clnt (.create dir name (.exclusive parent)), .done (.ok res)⟩ ∈ es)
      (fun _ _ _ ↦ True) c.daemon [] := by
    unfold hsxFuseCreate
    rw [wp_bind, wp_of_ret (hsfsIlookup_run c.found c.live), wp_bind,
      wp_of_ret (update_run c.live _), wp_bind]
    refine wp_mono ?_ (fun _ _ _ _ ↦ trivial) (wp_and (wp_hsiNfs3Create hi name _)
      (HandleFrame.silent.create c.inode name _ _ []))
    rintro ⟨err, new⟩ d₁ _ ⟨hevent, es, rfl, hsilent⟩
    rw [c.how_asked, show c.asked.fh = dir from c.fh] at hevent
    change wp Server.record (replyNew .create err new) _ _ d₁ _
    unfold replyNew
    rw [wp_ite]
    split
    · rintro ⟨e, hreply⟩
      change d₁.replies ++ [.err err] = _ at hreply
      rw [hsilent.replies] at hreply
      cases List.append_cancel_left hreply
    · next herr =>
        obtain ⟨clnt, res, hmem⟩ := hevent (not_not.1 herr)
        refine wp_mono ?_ (fun _ _ _ _ ↦ trivial)
          (Evolves.of_forall (r := fun _ _ _ ↦ True) (fun _ _ _ ↦ trivial) _ d₁ _)
        rintro _ d₂ _ ⟨es', rfl, -⟩ _
        exact ⟨clnt, res, List.mem_append_left _ hmem⟩
  exact (wp_iff_exec.1 hwp).1 () d' es h hcreated

end ExclusiveCreate

/-- **Two clients that know the directory by different numbers do not both have success**, in
whatever order their calls come. -/
theorem not_both_created {dir : NfsFh} {parent₁ parent₂ : UInt64} {name : Name}
    (hne : parent₁ ≠ parent₂) (c₁ : ExclusiveCreate dir parent₁) (c₂ : ExclusiveCreate dir parent₂)
    {s s' : DirStore} {d₁ d₂ : Daemon}
    (h : Par dirEnv (c₁.run name) (c₂.run name) s (.ok (), d₁) (.ok (), d₂) s') :
    ¬ (Created c₁.daemon d₁ ∧ Created c₂.daemon d₂) := by
  rintro ⟨h₁, h₂⟩
  obtain ⟨es₁, es₂, hx₁, hx₂, hlast⟩ := h.events [] []
  obtain ⟨clnt₁, res₁, he₁⟩ := c₁.accepted hx₁ h₁
  obtain ⟨clnt₂, res₂, he₂⟩ := c₂.accepted hx₂ h₂
  have hverf₁ := hlast _ (lasting_verf dir name (some parent₁)) _ (.inl he₁)
    (establishes_verf clnt₁ dir name parent₁ res₁)
  have hverf₂ := hlast _ (lasting_verf dir name (some parent₂)) _ (.inr he₂)
    (establishes_verf clnt₂ dir name parent₂ res₂)
  rw [hverf₁] at hverf₂
  exact hne (Option.some.inj (Option.some.inj hverf₂))

/-! ## Success -/

section success

variable {d : Daemon} {p : Addr} {i : Inode} {s s' : DirStore}

/-- A call that is answered at the first attempt. -/
theorem exec_call {req : Rpc} {res : req.Res} (clnt : Client)
    (h : dirServes req s res s') :
    Prog.Exec dirEnv ((hsiNfs3ClntCall clnt req).run d) s (.ok (.ok res), d.useClient clnt) s' := by
  have hS : dirEnv (.clntCall clnt req) s (RpcReply.done res) s' := h
  unfold hsiNfs3ClntCall hsiNfs3ClntCallLoop
  exact .call hS (.ret _ s')

/-- `SETATTR` that is answered with attributes. -/
theorem exec_hsiNfs3Setattr (hi : d.heap p = some i) (fattr : NfsFattr) (attr : HsfsIattr)
    (after : Fattr3) :
    ∃ d' fattr', Prog.Exec dirEnv ((hsiNfs3Setattr p fattr attr).run d) s (.ok (0, fattr'), d') s ∧
      ClientsOnly d [] d' := by
  have hserve : dirServes (.setattr i.fh (sattr3OfIattr attr)) s (Nfs3res.ok (some after)) s := rfl
  refine ⟨(d.useClient d.sb.clntp).useClient d.sb.clntp,
    hsiNfs3Post2fattr (some after) (nfsInitFattr fattr), ?_,
    ⟨⟨rfl, rfl, rfl, rfl⟩, rfl, rfl, rfl, rfl⟩⟩
  unfold hsiNfs3Setattr sbClntp hsiNfs3Getfh3
  exact exec_bind (exec_of_ret rfl) <|
    exec_bind (exec_bind (exec_of_ret (load_run hi)) (.ret _ s)) <|
    exec_bind (exec_call _ hserve) <| exec_bind (exec_of_ret rfl) (.ret _ s)

/-- Setting the mode of a file that has just been created. -/
theorem exec_exclusive_setattr (hi : d.heap p = some i) (hvalid : i.iattr.valid = 0) (mode : UInt32)
    (after : Fattr3) :
    ∃ d', Prog.Exec dirEnv ((hsiNfsSetattr p (exclusiveIattr i mode)).run d) s (.ok 0, d') s ∧
      d'.replies = d.replies ∧ ∃ i', d'.heap p = some i' ∧ i'.priv = i.priv := by
  have hmode : hsiNfsSetattrValid i (exclusiveIattr i mode) ≠ 0 := by
    have hbits : hasBits (0 ||| HsfsAttr.mode) HsfsAttr.size = false := by decide
    have hne : (0 ||| HsfsAttr.mode) &&& nfsValidAttrs ≠ 0 := by decide
    unfold hsiNfsSetattrValid exclusiveIattr
    rw [hvalid, hbits, if_neg (fun h ↦ nomatch h.1)]
    exact hne
  obtain ⟨d₁, fattr, hx, honly⟩ := exec_hsiNfs3Setattr (s := s) hi default
    { exclusiveIattr i mode with valid := hsiNfsSetattrValid i (exclusiveIattr i mode) } after
  have hi₁ : d₁.heap p = some i := honly.heap ▸ hi
  obtain ⟨err, d₂, hrun, hreplies, hi₂⟩ : ∃ err d₂, (nfsRefreshInode p fattr).run d₁ =
      .ret (.ok err, d₂) ∧ d₂.replies = d₁.replies ∧ ∃ i', d₂.heap p = some i' ∧
        i'.priv = i.priv := by
    rw [nfsRefreshInode_run hi₁]
    split
    · split
      · exact ⟨_, _, rfl, rfl, _, d₁.setInode_heap_self p _, rfl⟩
      · exact ⟨_, _, rfl, rfl, i, hi₁, rfl⟩
    · exact ⟨_, _, rfl, rfl, i, hi₁, rfl⟩
  refine ⟨d₂, ?_, hreplies.trans honly.replies, hi₂⟩
  unfold hsiNfsSetattr
  refine exec_bind (exec_of_ret (load_run hi)) ?_
  rw [run_ite, if_neg hmode]
  exact exec_bind (exec_of_ret (derefSb_run hi)) <| exec_bind hx <|
    exec_bind (exec_of_ret hrun) (.ret _ s)

/-- A new inode is counted and answered with. -/
theorem exec_replyNew (hi : d.heap p = some i) (hpriv : i.priv = 0) (hp : p ≠ Addr.null)
    (answer : EntryParam → Reply) :
    ∃ d' e, Prog.Exec dirEnv ((replyNew answer 0 p).run d) s (.ok (), d') s ∧
      d'.replies = d.replies ++ [answer e] := by
  obtain ⟨e, -, hrun⟩ := newEntry_run hi hpriv answer
  rw [replyNew, if_neg (not_not.2 rfl), if_neg hp]
  exact ⟨_, e, exec_of_ret hrun, rfl⟩

/-- **Creation succeeds if the server accepts and there is room for the inode of a new object.** -/
theorem exec_hsiNfs3Create (hd : d.CacheOk) (hi : d.heap p = some i) {name : Name} {mode : UInt32}
    {fh : NfsFh} {attr : Fattr3} (hmode : (mode &&& 0xF0000) >>> 16 = 2) (hnlink : attr.nlink ≠ 0)
    (hnew : ∀ q, ¬ d.Holds q attr.fileid fh) (a : FreeAddr d.inUse)
    (hserve : dirServes (.create i.fh name (createhow3Of i mode)) s
      (Nfs3res.ok ⟨some fh, some attr⟩) s') :
    ∃ d', Prog.Exec dirEnv ((hsiNfs3Create p name mode).run d) s (.ok (0, a.1), d') s' ∧
      d'.replies = d.replies ∧ ∃ i', d'.heap a.1 = some i' ∧ i'.priv = 0 := by
  let d₁ := d.useClient d.sb.clntp
  have hd₁ : d₁.CacheOk := hd.congr rfl rfl rfl rfl
  let fattr := hsiNfs3Fattr2fattr attr NfsFattr.fresh
  have hu : fattr.Usable := ⟨isValid_hsiNfs3Fattr2fattr attr _, hnlink⟩
  -- the inode is entered
  obtain ⟨id, hget⟩ : ∃ id, Prog.Exec dirEnv ((hsiNfsFhget fh fattr).run d₁) s'
      (.ok a.1, d₁.insert a.1 (newInode d₁.sb ⟨fh, fattr⟩ id)) s' := by
    rcases hd₁.hsiNfsFhget_cases fh fattr with ⟨hnot, -⟩ | ⟨-, q, j, hq, hj, hfileid, hfh, -⟩ |
      ⟨-, -, k, hrun, -, hk⟩
    · exact absurd hu hnot
    · exact absurd ⟨hq, j, hj, hfileid, hfh⟩ (hnew q)
    · obtain ⟨id, -, hka⟩ := hk a
      refine ⟨id, ?_⟩
      rw [hrun]
      have hmalloc : dirEnv (.mallocInode fattr.fileid fh d₁.inUse) s'
        (some a : Option (FreeAddr d₁.inUse)) s' := rfl
      refine .call hmalloc ?_
      rw [hka]
      exact .ret _ s'
  have hcreate : Prog.Exec dirEnv ((hsiNfs3HandleCreate ⟨some fh, some attr⟩).run d₁) s'
      (.ok a.1, d₁.insert a.1 (newInode d₁.sb ⟨fh, fattr⟩ id)) s' := hget
  have herr : isErr a.1 = false := by
    have hroom := a.2.2.1
    unfold sizeofHsfsInode at hroom
    exact isErr_of_lt (by omega)
  have hi₂ : (d₁.insert a.1 (newInode d₁.sb ⟨fh, fattr⟩ id)).heap a.1 =
    some (newInode d₁.sb ⟨fh, fattr⟩ id) := Daemon.insert_heap_self
  obtain ⟨d₃, hset, hreplies, i₃, hi₃, hpriv⟩ :=
    exec_exclusive_setattr (s := s') hi₂ rfl mode attr
  refine ⟨d₃.useClient d.sb.clntp, ?_, hreplies, i₃, hi₃, hpriv⟩
  unfold hsiNfs3Create sbClntp
  refine exec_bind (exec_of_ret (load_run hi)) <| exec_bind (exec_of_ret rfl) <|
    exec_bind (exec_call _ hserve) <| exec_bind hcreate ?_
  rw [herr, if_neg Bool.false_ne_true, if_pos hmode]
  exact exec_bind (exec_of_ret (load_run hi₂)) <| exec_bind hset <|
    exec_bind (exec_of_ret rfl) (.ret _ s')

end success

namespace ExclusiveCreate

variable {dir : NfsFh} {parent : UInt64}

/-- **A client has success if the server accepts its verifier and there is room for the inode of
a new object.** -/
theorem exists_created (c : ExclusiveCreate dir parent) {name : Name} {fh : NfsFh} {attr : Fattr3}
    {s s' : DirStore} (hnlink : attr.nlink ≠ 0) (hnew : ∀ q, ¬ c.daemon.Holds q attr.fileid fh)
    (a : FreeAddr c.daemon.inUse) (hserve : dirServes (.create dir name (.exclusive parent)) s
      (Nfs3res.ok ⟨some fh, some attr⟩) s') :
    ∃ d', Prog.Exec dirEnv (c.run name) s (.ok (), d') s' ∧ Created c.daemon d' := by
  let d₁ := c.daemon.setInode c.inode c.asked
  have hsame : c.i.SameId c.asked := ⟨rfl, rfl, rfl, rfl, rfl⟩
  have hd₁ : d₁.CacheOk := c.cacheOk.setInode c.live hsame
  have hi₁ : d₁.heap c.inode = some c.asked := Daemon.setInode_heap_self ..
  have hnew₁ (q : Addr) : ¬ d₁.Holds q attr.fileid fh := by
    rintro ⟨hq, k, hk, hfileid, hfh⟩
    obtain ⟨k', hk', hid⟩ := Daemon.heap_setInode_sameId c.live hsame hk
    exact hnew q ⟨hq, k', hk', hid.fileid.symm.trans hfileid, hid.fh.symm.trans hfh⟩
  have hfree : d₁.inUse a.1 = false := by
    have hne : a.1 ≠ c.inode := by
      intro heq
      have hused : c.daemon.inUse c.inode = true := by simp [Daemon.inUse, c.live]
      rw [← heq, a.2.2.2] at hused
      cases hused
    rw [Daemon.inUse, c.daemon.setInode_heap_of_ne hne]
    exact a.2.2.2
  have hserve₁ : dirServes
    (.create c.asked.fh name (createhow3Of c.asked (createMode c.mode c.flags)))
      s (Nfs3res.ok ⟨some fh, some attr⟩) s' := by
    rw [c.how_asked, show c.asked.fh = dir from c.fh]
    exact hserve
  obtain ⟨d₂, hx, hreplies, i₂, hi₂, hpriv⟩ :=
    exec_hsiNfs3Create hd₁ hi₁ (createMode_excl c.mode c.excl)
    hnlink hnew₁ ⟨a.1, a.2.1, a.2.2.1, hfree⟩ hserve₁
  obtain ⟨d₃, e, hx₃, hreplies₃⟩ := exec_replyNew (s := s') hi₂ hpriv a.2.1 .create
  refine ⟨d₃, ?_, e, by rw [hreplies₃, hreplies]; rfl⟩
  unfold run hsxFuseCreate
  exact exec_bind (exec_of_ret (hsfsIlookup_run c.found c.live)) <|
    exec_bind (exec_of_ret (update_run c.live _)) <| exec_bind hx hx₃

end ExclusiveCreate

/-! ## Two clients -/

/-- The inode of a directory that has been given a number. -/
private def dirInode (dir : NfsFh) (parent : UInt64) : Inode :=
  { Inode.zero with fh := dir, ino := parent }

private theorem cacheOk_insert_dirInode (dir : NfsFh) {parent : UInt64} (h : parent ≠ 0) :
    ((Daemon.start .sample .sample).insert 0x10000 (dirInode dir parent)).CacheOk := by
  have hboot := FhgetRun.booted_start .sample .sample
  refine hboot.cacheOk.insert (hboot.heap _) ⟨by decide, by decide, by decide⟩ ⟨h, ?_, ?_⟩ ?_ ?_
  · exact (by decide : (0 : UInt64) &&& nfsInoStale = 0)
  · exact (by decide : hasBits 0 iNew = false)
  · rintro ⟨q, hq, -⟩
    exact hboot.notMem q hq
  · rintro q ⟨hq, -⟩
    exact hboot.notMem q hq

/-- A client that has cached nothing but the directory, under any number. -/
private def soleClient (dir : NfsFh) (parent : UInt64) (h : parent ≠ 0) :
    ExclusiveCreate dir parent where
  daemon := (Daemon.start .sample .sample).insert 0x10000 (dirInode dir parent)
  inode := 0x10000
  i := dirInode dir parent
  mode := 0o644
  flags := oExcl
  uid := 0
  gid := 0
  cacheOk := cacheOk_insert_dirInode dir h
  found := (cacheOk_insert_dirInode dir h).ilookup_eq_some_iff.2
    ⟨Daemon.mem_idTable_insert.2 (.inl rfl), Daemon.inoOf_insert_self⟩
  live := Daemon.insert_heap_self
  fh := rfl
  excl := by decide

/-- Such a client has success with any name, if the server accepts its verifier. -/
private theorem soleClient_created (dir : NfsFh) {parent : UInt64} (h : parent ≠ 0) {name : Name}
    {s s' : DirStore} (hserve : dirServes (.create dir name (.exclusive parent)) s
      (Nfs3res.ok ⟨some sampleRoot, some (sampleFile 2)⟩) s') :
    ∃ d', Prog.Exec dirEnv ((soleClient dir parent h).run name) s (.ok (), d') s' ∧
      Created (soleClient dir parent h).daemon d' := by
  have hboot := FhgetRun.booted_start .sample .sample
  have hfree : (soleClient dir parent h).daemon.inUse 0x20000 = false := by
    have hnone : (soleClient dir parent h).daemon.heap 0x20000 = none :=
      (Daemon.insert_heap_of_ne (by decide)).trans (hboot.heap _)
    rw [Daemon.inUse, hnone]
    exact (by decide : Layout.sample.nearBad 0x20000 = false)
  refine (soleClient dir parent h).exists_created (by decide) ?_
    ⟨0x20000, by decide, by decide, hfree⟩ hserve
  rintro q ⟨hq, i, hi, hfileid, -⟩
  rcases Daemon.mem_idTable_insert.1 hq with rfl | hq
  · have hi' : (soleClient dir parent h).daemon.heap 0x10000 = some (dirInode dir parent) :=
      (soleClient dir parent h).live
    rw [hi'] at hi
    cases hi
    exact absurd (show (0 : UInt64) = 2 from hfileid) (by decide)
  · exact hboot.notMem q hq

/-- **Exclusive creation is exclusive exactly between clients that know the directory by
different numbers.** -/
theorem exclusive_iff (dir : NfsFh) (name : Name) {parent₁ parent₂ : UInt64} (h₁ : parent₁ ≠ 0) :
    (∀ (c₁ : ExclusiveCreate dir parent₁) (c₂ : ExclusiveCreate dir parent₂) (s s' : DirStore)
      (d₁ d₂ : Daemon), Par dirEnv (c₁.run name) (c₂.run name) s (.ok (), d₁) (.ok (), d₂) s' →
      ¬ (Created c₁.daemon d₁ ∧ Created c₂.daemon d₂)) ↔ parent₁ ≠ parent₂ := by
  constructor
  · rintro hall rfl
    -- the first client creates the file, and the second one is taken for the first
    let s₁ : DirStore := DirStore.enter (fun _ _ ↦ none) dir name (some parent₁)
    have hnew : dirServes (.create dir name (.exclusive parent₁)) (fun _ _ ↦ none)
      (Nfs3res.ok ⟨some sampleRoot, some (sampleFile 2)⟩) s₁ := .inl ⟨rfl, rfl⟩
    have hagain : dirServes (.create dir name (.exclusive parent₁)) s₁
      (Nfs3res.ok ⟨some sampleRoot, some (sampleFile 2)⟩) s₁ :=
      .inr ⟨DirStore.enter_self _ dir name _, rfl⟩
    obtain ⟨d₁, hx₁, hc₁⟩ := soleClient_created dir h₁ hnew
    obtain ⟨d₂, hx₂, hc₂⟩ := soleClient_created dir h₁ hagain
    exact hall _ _ _ _ d₁ d₂ (.of_exec hx₁ hx₂) ⟨hc₁, hc₂⟩
  · exact fun hne c₁ c₂ s s' d₁ d₂ h ↦ not_both_created hne c₁ c₂ h

theorem exclusive_iff_root : (∀ (c₁ c₂ : ExclusiveCreate sampleRoot 1) (s s' : DirStore)
    (d₁ d₂ : Daemon), Par dirEnv (c₁.run [102]) (c₂.run [102]) s (.ok (), d₁) (.ok (), d₂) s' →
    ¬ (Created c₁.daemon d₁ ∧ Created c₂.daemon d₂)) ↔ (1 : UInt64) ≠ 1 :=
  exclusive_iff sampleRoot [102] (by decide)

/-- The server, run. -/
private def dirReply : (req : Rpc) → DirStore → Option (req.Res × DirStore)
  | .create dir name (.exclusive verf), s =>
      match s dir name with
      | none => some (.ok ⟨some (NfsFh.ofByte 2), some (sampleFile 2)⟩,
          s.enter dir name (some verf))
      | some stored =>
          if stored = some verf then some (.ok ⟨some (NfsFh.ofByte 2), some (sampleFile 2)⟩, s)
          else none
  | .setattr _ _, s => some (.ok (some (sampleFile 2)), s)
  | _, _ => none

private theorem dirServes_of_reply (req : Rpc) (s : DirStore) (res : req.Res) (s' : DirStore)
    (h : dirReply req s = some (res, s')) : dirServes req s res s' := by
  unfold dirReply at h
  split at h
  · split at h
    · next hnone =>
        cases h
        exact .inl ⟨hnone, rfl⟩
    · next hstored =>
        split at h
        · next heq =>
            cases h
            exact .inr ⟨heq ▸ hstored, rfl⟩
        · exact nomatch h
  · cases h
    rfl
  · exact nomatch h

/-- A client that has just mounted the file system creates a file in its root. -/
private def playCreate (d : Daemon) (s : DirStore) : Option (Daemon × DirStore) :=
  match ((hsxFuseCreate 1 [102] 0o644 oExcl 0 0).run d).eval (networkAnswer dirReply) s with
  | some ((.ok (), d'), s') => some (d', s')
  | _ => none

private theorem exec_of_playCreate {d d' : Daemon} {s s' : DirStore}
    (h : playCreate d s = some (d', s')) :
    Prog.Exec dirEnv ((hsxFuseCreate 1 [102] 0o644 oExcl 0 0).run d) s (.ok (), d') s' := by
  unfold playCreate at h
  split at h
  · next heval =>
      cases h
      exact Prog.exec_of_eval (network_of_answer dirServes_of_reply) heval
  · exact nomatch h

/-- The answer is a new file. -/
private def isCreateReply : Reply → Bool
  | .create _ => true
  | _ => false

theorem not_exclusive : ¬ ∀ (dir : NfsFh) (name : Name) (parent₁ parent₂ : UInt64)
    (c₁ : ExclusiveCreate dir parent₁) (c₂ : ExclusiveCreate dir parent₂) (s s' : DirStore)
    (d₁ d₂ : Daemon), c₁.daemon.Mounted → c₂.daemon.Mounted → s dir name = none →
    Par dirEnv (c₁.run name) (c₂.run name) s (.ok (), d₁) (.ok (), d₂) s' →
    ¬ (Created c₁.daemon d₁ ∧ Created c₂.daemon d₂) := by
  intro hall
  have hplay : (sampleMount.bind fun d ↦ (d.ilookup 1).bind fun p ↦ (d.heap p).bind fun i ↦
      (playCreate d fun _ _ ↦ none).bind fun r₁ ↦ (playCreate d r₁.2).map fun r₂ ↦
        i.fh == sampleRoot && d.replies == [] && r₁.1.replies.length == 1 &&
          r₁.1.replies.all isCreateReply && r₂.1.replies.length == 1 &&
          r₂.1.replies.all isCreateReply) = some true := by decide +kernel
  obtain ⟨d, hd, hplay⟩ := Option.bind_eq_some_iff.1 hplay
  obtain ⟨p, hp, hplay⟩ := Option.bind_eq_some_iff.1 hplay
  obtain ⟨i, hi, hplay⟩ := Option.bind_eq_some_iff.1 hplay
  obtain ⟨⟨d₁, s₁⟩, hx₁, hplay⟩ := Option.bind_eq_some_iff.1 hplay
  obtain ⟨⟨d₂, s₂⟩, hx₂, hplay⟩ := Option.map_eq_some_iff.1 hplay
  simp only [Bool.and_eq_true, beq_iff_eq] at hplay
  obtain ⟨⟨⟨⟨⟨hfh, hnil⟩, hlen₁⟩, hall₁⟩, hlen₂⟩, hall₂⟩ := hplay
  have hmounted := mounted_of_play hd
  have hcreated {d' : Daemon} (hlen : d'.replies.length = 1)
      (hall : d'.replies.all isCreateReply = true) : Created d d' := by
    obtain ⟨r, hr⟩ := List.length_eq_one_iff.1 hlen
    rw [hr, List.all_cons, Bool.and_eq_true] at hall
    cases r with
    | create e => exact ⟨e, by rw [hr, hnil]; rfl⟩
    | _ => exact nomatch hall.1
  let c : ExclusiveCreate sampleRoot 1 := ⟨d, p, i, 0o644, oExcl, 0, 0, hmounted.extends_start.1,
    hp, hi, hfh, by decide⟩
  exact hall sampleRoot [102] 1 1 c c _ s₂ d₁ d₂ hmounted hmounted rfl
    (.of_exec (exec_of_playCreate hx₁) (exec_of_playCreate hx₂))
    ⟨hcreated hlen₁ hall₁, hcreated hlen₂ hall₂⟩

end Hsfs
