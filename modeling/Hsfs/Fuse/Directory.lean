import Hsfs.Daemon.Network
import Hsfs.Fuse.Identity
import Hsfs.Table.Pages
import Mathlib.Data.List.TakeWhile

/-!
# Listing a directory

A directory is listed through two buffers.  The server answers `READDIR` with as many entries as it
likes, and `hsx_fuse_readdir` gives the kernel as many of them as fit into its buffer and drops the
rest.  The reader goes on from the last entry it has got, so the entries that were dropped are the
first that the server is asked for next time.

The server is any that answers with a beginning of what is left (`Directory.serves`), and the reader
is `readAll`, which reads until there are no more entries.
-/

namespace Hsfs

open Interact Interact.Act Daemon Pages

/-! ## The directory and its server -/

/-- A directory that does not change.  Names are strings in C, without a zero. -/
structure Directory where
  fh : NfsFh
  fileid : UInt64
  entries : List Entry3
  names : ∀ e ∈ entries, e.name.length ≤ 255 ∧ 0 ∉ e.name
  cookies : (entries.map Entry3.cookie).Nodup
  nonzero : ∀ e ∈ entries, e.cookie ≠ 0

/-- The entry as the kernel gets it. -/
def Entry3.dirent (e : Entry3) : Dirent := ⟨e.fileid, e.name, e.cookie⟩

namespace Directory

variable {D : Directory}

/-- The entries behind a cookie. -/
def rest (D : Directory) (cookie : UInt64) : List Entry3 := after Entry3.cookie 0 D.entries cookie

theorem mem_of_mem_rest {cookie : UInt64} {e : Entry3} (h : e ∈ D.rest cookie) : e ∈ D.entries :=
  (after_suffix Entry3.cookie 0 D.entries cookie).subset h

/-- Attributes of the directory. -/
def Describes (D : Directory) (attr : Fattr3) : Prop := attr.fileid = D.fileid ∧ attr.type = 2

/-- The server answers `READDIR` with some of the entries that are left, and with none only if none
are left.  It may leave out the attributes of the directory, and change the verifier. -/
def serves (D : Directory) : (req : Rpc) → Unit → req.Res → Unit → Prop
  | .readdir fh cookie _ _, _, res, _ => fh = D.fh → ∃ resok, res = .ok resok ∧
      (∀ attr ∈ resok.dirAttributes, D.Describes attr) ∧ resok.entries <+: D.rest cookie ∧
      (resok.entries = [] → D.rest cookie = [])
  | _, _, _, _ => True

/-- The directory is cached under a number. -/
structure CachedAt (D : Directory) (ino : UInt64) (d : Daemon) (p : Addr) (i : Inode) : Prop where
  found : d.ilookup ino = some p
  live : d.heap p = some i
  fh : i.fh = D.fh
  fileid : i.fileid = D.fileid
  type : sIsdir i.iattr.mode = true

/-- The cached directory takes its attributes from any reply. -/
theorem CachedAt.takes {ino : UInt64} {d : Daemon} {p : Addr} {i : Inode} (h : D.CachedAt ino d p i)
    {attr : Fattr3} (hattr : D.Describes attr) : i.takes attr = true := by
  have htype : (hsiNfs3Fattr2fattr attr NfsFattr.fresh).mode &&& sIfmt = sIfdir := by
    have hmode : (hsiNfs3Fattr2fattr attr NfsFattr.fresh).mode =
      (attr.mode &&& ~~~sIfmt) ||| sIfdir := by
      simp only [hsiNfs3Fattr2fattr, hattr.2]
      rfl
    have hnot : ~~~sIfmt &&& sIfmt = 0 := by decide
    have hself : sIfdir &&& sIfmt = sIfdir := by decide
    have hdistrib : (attr.mode &&& ~~~sIfmt ||| sIfdir) &&& sIfmt =
        (attr.mode &&& ~~~sIfmt &&& sIfmt) ||| (sIfdir &&& sIfmt) :=
      UInt32.toBitVec_inj.1 BitVec.and_or_distrib_right
    rw [hmode, hdistrib, UInt32.and_assoc, hnot, hself, UInt32.and_zero, UInt32.zero_or]
  rw [Inode.takes, Inode.accepts, Bool.and_eq_true_iff, beq_iff_eq, beq_iff_eq]
  exact ⟨h.fileid.trans hattr.1.symm, (beq_iff_eq.1 h.type).trans htype.symm⟩

/-- The directory stays cached when its inode is overwritten. -/
theorem CachedAt.setInode {ino : UInt64} {d d' : Daemon} {p : Addr} {i j : Inode}
    (h : D.CachedAt ino d p i) (hj : i.SameObject j) (htable : d'.sb.idTable = d.sb.idTable)
    (hheap : d'.heap = (d.setInode p j).heap) : D.CachedAt ino d' p j := by
  have hlive : d'.heap p = some j := by rw [hheap, d.setInode_heap_self]
  have hstops : d'.stopsAt (fun k ↦ k.ino == ino) = d.stopsAt fun k ↦ k.ino == ino := by
    funext q
    by_cases hq : q = p
    · subst hq
      simp only [stopsAt, hlive, h.live, hj.ino]
    · simp only [stopsAt, hheap, d.setInode_heap_of_ne hq]
  refine ⟨?_, hlive, hj.fh.trans h.fh, hj.fileid.trans h.fileid, ?_⟩
  · rw [ilookup, htable, hstops]
    exact h.found
  · rw [sIsdir, hj.type]
    exact h.type

end Directory

/-! ## The operation -/

/-- The entry as `hsi_nfs3_readdir` passes it on. -/
def Entry3.ctx (e : Entry3) : ReaddirCtx :=
  ⟨e.cookie, (cString e.name).take 255, e.fileid, Addr.null⟩

section operation

variable {σ : Type} {serves : (req : Rpc) → σ → req.Res → σ → Prop} {E : Fault → Daemon → σ → Prop}
  {d : Daemon} {s : σ}

/-- **The loop over the entries of a reply**, if there is memory. -/
theorem wp_readdirEntries (entries : List Entry3) (ctx : List ReaddirCtx) :
    wp (reliable serves) (readdirEntries entries ctx)
      (fun r d' s' ↦ r = (0, ctx ++ entries.map Entry3.ctx) ∧ d' = d ∧ s' = s) E d s := by
  induction entries generalizing ctx with
  | nil =>
      rw [List.map_nil, List.append_nil]
      exact ⟨rfl, rfl, rfl⟩
  | cons e entries ih =>
      have hnext := ih (ctx ++ [e.ctx])
      rw [List.append_assoc] at hnext
      unfold readdirEntries allocCopyName
      rw [wp_bind, wp_bind]
      refine wp_malloc_reliable ?_
      rw [if_pos rfl, wp_bind]
      refine wp_malloc_reliable ?_
      rw [if_pos rfl, wp_pure]
      exact hnext

end operation

namespace Directory

variable {D : Directory} {ino : UInt64} {d : Daemon} {p : Addr} {i : Inode}

/-- A part of the entries that are left, and none only if none are left. -/
def Piece (D : Directory) (cookie : UInt64) (piece : List Entry3) : Prop :=
  piece <+: D.rest cookie ∧ (piece = [] → D.rest cookie = [])

/-- **`hsi_nfs3_readdir`** returns a part of the entries that are left. -/
theorem CachedAt.wp_readdir (h : D.CachedAt ino d p i) (count : UInt32) (cookie : UInt64) :
    wp (reliable D.serves) (hsiNfs3Readdir p count cookie)
      (fun r d' _ ↦ ∃ piece i', r = (0, piece.map Entry3.ctx) ∧ D.Piece cookie piece ∧
        d'.replies = d.replies ∧ D.CachedAt ino d' p i')
      (fun _ _ _ ↦ False) d () := by
  unfold hsiNfs3Readdir sbClntp
  simp only [wp_bind, wp_get, wp_pure, wp_of_ret (getCookieVerf_run h.live),
    wp_of_ret (getfh3_run h.live)]
  refine wp_mono ?_ (fun _ _ _ h ↦ h) (wp_call_reliable _ _)
  rintro _ d₁ ⟨⟩ ⟨res, rfl, rfl, hserved⟩
  obtain ⟨resok, rfl, hattrs, hpiece⟩ := hserved h.fh
  have hlive : (d.useClient d.sb.clntp).heap p = some i := h.live
  have htakes : resok.dirAttributes.all i.takes = true :=
    (Option.all_eq_true _ _).2 fun attr hattr ↦ h.takes (hattrs attr hattr)
  have hsame := i.sameObject_offered resok.dirAttributes
  dsimp only
  rw [wp_bind, wp_of_ret (nfsRefreshInode_post_run hlive resok.dirAttributes), if_pos htakes,
    if_neg (not_not_intro rfl), wp_bind, setCookieVerf,
    wp_of_ret (update_run (setInode_heap_self _ p _) _), setInode_setInode, wp_bind]
  refine wp_mono ?_ (fun _ _ _ h ↦ h) (wp_readdirEntries resok.entries [])
  rintro r d₂ _ ⟨rfl, rfl, rfl⟩
  refine ⟨resok.entries, { i.offered resok.dirAttributes with cookieverf := resok.cookieverf },
    rfl, hpiece, rfl, h.setInode ⟨hsame.ino, hsame.fileid, hsame.fh, hsame.type⟩ rfl rfl⟩

/-! ## The handler -/

/-- What fits is a beginning of what there is. -/
theorem addDirents_eq (size : Nat) (entries : List Entry3) (len : Nat)
    (hnames : ∀ e ∈ entries, e.name.length ≤ 255 ∧ 0 ∉ e.name) :
    ∃ n, addDirents size (entries.map Entry3.ctx) len = (entries.take n).map Entry3.dirent ∧
      (280 < size - len → entries ≠ [] → n ≠ 0) := by
  induction entries generalizing len with
  | nil => exact ⟨0, rfl, fun _ h ↦ absurd rfl h⟩
  | cons e entries ih =>
      obtain ⟨hlength, hzero⟩ := hnames e List.mem_cons_self
      have hname : (cString e.name).take 255 = e.name := by
        have hall : cString e.name = e.name :=
          List.takeWhile_eq_self_iff.2 fun b hb ↦ decide_eq_true fun hb0 ↦ hzero (hb0 ▸ hb)
        rw [hall, List.take_of_length_le hlength]
      rw [List.map_cons, addDirents]
      simp only [Entry3.ctx, hname]
      split
      · next hfull =>
          refine ⟨0, rfl, fun hroom _ ↦ ?_⟩
          unfold fuseAddDirentry direntSize at hfull
          omega
      · obtain ⟨n, hn, -⟩ := ih (len + fuseAddDirentry e.name) fun e' he' ↦
          hnames e' (List.mem_cons_of_mem e he')
        refine ⟨n + 1, ?_, fun _ _ ↦ Nat.succ_ne_zero n⟩
        rw [List.take_succ_cons, List.map_cons]
        exact congrArg (e.dirent :: ·) hn

/-- **`hsx_fuse_readdir`** answers with a part of the entries that are left. -/
theorem CachedAt.wp_hsxFuseReaddir (h : D.CachedAt ino d p i) {size : UInt64}
    (hsize : 280 < size.toNat)
    (off : UInt64) :
    wp (reliable D.serves) (hsxFuseReaddir ino size off)
      (fun _ d' _ ↦ ∃ piece i', d'.replies = d.replies ++ [.dirents (piece.map Entry3.dirent)] ∧
        D.Piece off piece ∧ D.CachedAt ino d' p i')
      (fun _ _ _ ↦ False) d () := by
  unfold hsxFuseReaddir
  rw [wp_bind, wp_of_ret (hsfsIlookup_run h.found h.live)]
  dsimp only
  rw [wp_bind]
  refine wp_mono ?_ (fun _ _ _ h ↦ h) (h.wp_readdir size.toUInt32 off)
  rintro _ d₁ _ ⟨page, i₁, rfl, ⟨hpage, hnone⟩, hreplies, h₁⟩
  have hnames : ∀ e ∈ page, e.name.length ≤ 255 ∧ 0 ∉ e.name := fun e he ↦
    D.names e (mem_of_mem_rest (hpage.subset he))
  obtain ⟨n, hn, hfits⟩ := addDirents_eq size.toNat page 0 hnames
  dsimp only
  rw [if_neg (not_not_intro rfl), wp_bind]
  refine wp_malloc_reliable ?_
  rw [if_pos rfl, hn]
  refine ⟨page.take n, i₁, by rw [← hreplies], ⟨(List.take_prefix n page).trans hpage, ?_⟩, ?_⟩
  · intro hnil
    refine hnone (by_contra fun hne ↦ ?_)
    exact (List.take_eq_nil_iff.1 hnil).elim (hfits hsize hne) hne
  · exact ⟨h₁.found, h₁.live, h₁.fh, h₁.fileid, h₁.type⟩

end Directory

/-! ## The reader -/

/-- Read a directory: from the last entry that has been got, until there are no more entries.  With
too few calls, the reader does not get to the end. -/
def readAll (ino : UInt64) (size : UInt64) : (calls : Nat) → (off : UInt64) →
    Hs (Option (List Dirent))
  | 0, _ => pure none
  | calls + 1, off => do
      hsxFuseReaddir ino size off
      match (← Act.get).replies.getLast? with
      | some (.dirents entries) =>
          match entries.getLast? with
          | none => pure (some [])
          | some last => do
              let more ← readAll ino size calls last.off
              pure (more.map (entries ++ ·))
      | _ => pure none

namespace Directory

variable {D : Directory} {ino : UInt64} {d : Daemon} {p : Addr} {i : Inode}

/-- A piece that is not empty is followed by the rest. -/
theorem rest_of_piece {cookie : UInt64} {piece more : List Entry3}
    (h : D.rest cookie = piece ++ more)
    (hne : piece ≠ []) : D.rest (piece.getLast hne).cookie = more :=
  after_getLast D.cookies D.nonzero h hne

/-- From any cookie, the reader gets what is left. -/
theorem CachedAt.wp_readAll (h : D.CachedAt ino d p i) {size : UInt64} (hsize : 280 < size.toNat)
    {calls : Nat} (off : UInt64) (hcalls : (D.rest off).length < calls) :
    wp (reliable D.serves) (readAll ino size calls off)
      (fun r _ _ ↦ r = some ((D.rest off).map Entry3.dirent)) (fun _ _ _ ↦ False) d () := by
  -- every call that is answered with entries leaves fewer of them
  induction calls generalizing d i off with
  | zero => exact absurd hcalls (Nat.not_lt_zero _)
  | succ calls ih =>
      unfold readAll
      rw [wp_bind]
      refine wp_mono ?_ (fun _ _ _ h ↦ h) (h.wp_hsxFuseReaddir hsize off)
      rintro _ d₁ _ ⟨piece, i₁, hreplies, ⟨⟨more, hmore⟩, hnone⟩, h₁⟩
      rw [wp_bind, wp_get, hreplies, List.getLast?_concat]
      dsimp only
      by_cases hne : piece = []
      · rw [hnone hne, hne]
        rfl
      · have hrest := rest_of_piece hmore.symm hne
        have hlast : (piece.map Entry3.dirent).getLast? = some (piece.getLast hne).dirent := by
          rw [List.getLast?_map, List.getLast?_eq_getLast_of_ne_nil hne]
          rfl
        rw [hlast]
        dsimp only
        rw [wp_bind]
        have hfewer : (D.rest (piece.getLast hne).cookie).length < calls := by
          have hpos := List.length_pos_of_ne_nil hne
          rw [hrest]
          rw [← hmore, List.length_append] at hcalls
          omega
        refine wp_mono ?_ (fun _ _ _ h ↦ h) (ih h₁ _ hfewer)
        rintro _ d₂ _ rfl
        change some (piece.map Entry3.dirent ++
          (D.rest (piece.getLast hne).cookie).map Entry3.dirent) = _
        rw [hrest, ← hmore, List.map_append]

/-- **A listing is complete**: against every server that pages as it likes, and with every buffer
that has room for one entry, a reader that reads from the beginning gets to the end after at most
one call more than there are entries, and has got every entry once, in the order of the server. -/
theorem readAll_complete (D : Directory) {ino : UInt64} {d : Daemon} {p : Addr} {i : Inode}
    (h : D.CachedAt ino d p i) {size : UInt64} (hsize : 280 < size.toNat) {calls : Nat}
    (hcalls : D.entries.length < calls) {out : Except Fault (Option (List Dirent))} {d' : Daemon}
    (hx : Prog.Exec (reliable D.serves) ((readAll ino size calls 0).run d) () (out, d') ()) :
    out = .ok (some (D.entries.map Entry3.dirent)) := by
  have hall : D.rest 0 = D.entries := after_start
  have hwp := h.wp_readAll hsize 0 (hall ▸ hcalls)
  rw [hall] at hwp
  cases out with
  | ok r => exact congrArg Except.ok ((wp_iff_exec.1 hwp).1 r d' () hx)
  | error e => exact ((wp_iff_exec.1 hwp).2 e d' () hx).elim

/-- A directory with two files. -/
def sample : Directory where
  fh := sampleRoot
  fileid := 1
  entries := [⟨2, [102], 5⟩, ⟨3, [103], 6⟩]
  names := by decide
  cookies := by decide
  nonzero := by decide

/-- A server that sends one entry at a time. -/
def sampleReply : (req : Rpc) → Unit → Option (req.Res × Unit)
  | .readdir _ cookie _ _, _ => some (.ok ⟨none, 7, (sample.rest cookie).take 1⟩, ())
  | _, _ => none

theorem serves_of_sampleReply (req : Rpc) (s : Unit) (res : req.Res) (s' : Unit)
    (h : sampleReply req s = some (res, s')) : sample.serves req s res s' := by
  cases req with
  | readdir fh cookie verf count =>
      cases h
      refine fun _ ↦ ⟨_, rfl, fun _ h ↦ (nomatch h), List.take_prefix 1 _, fun hnil ↦ ?_⟩
      exact (List.take_eq_nil_iff.1 hnil).resolve_left Nat.one_ne_zero
  | _ => exact nomatch h

/-- The two files are listed in two calls, and a third finds no more. -/
theorem readAll_complete_sample : ∃ d p i d', sample.CachedAt 1 d p i ∧
    Prog.Exec (reliable sample.serves) ((readAll 1 4096 3 0).run d) ()
      (.ok (some [⟨2, [102], 5⟩, ⟨3, [103], 6⟩]), d') () := by
  have hplay : (playAtRoot (networkAnswer sampleReply) (readAll 1 4096 3 0) ()).any
        (fun q ↦ decide (q.2.2.1.fh = sample.fh) && decide (q.2.2.1.fileid = sample.fileid) &&
          sIsdir q.2.2.1.iattr.mode) = true := by decide +kernel
  obtain ⟨⟨d, p, i, ⟨out, d'⟩, s⟩, hplay, htest⟩ := (Option.any_eq_true _ _).1 hplay
  obtain ⟨hp, hi, heval⟩ := of_playAtRoot hplay
  obtain ⟨htest, htype⟩ := Bool.and_eq_true_iff.1 htest
  obtain ⟨hfh, hfileid⟩ := Bool.and_eq_true_iff.1 htest
  have hcached : sample.CachedAt 1 d p i :=
    ⟨hp, hi, of_decide_eq_true hfh, of_decide_eq_true hfileid, htype⟩
  have hx := Prog.exec_of_eval (reliable_of_answer serves_of_sampleReply) heval
  have hout := readAll_complete sample hcached (by decide) (by decide) hx
  exact ⟨d, p, i, d', hcached, hout ▸ hx⟩

end Directory

end Hsfs
