import Hsfs.Fuse.Frame

/-!
# New objects should be new

The handlers that create an object set the lookup count of its inode to one, and assert that it was
zero before.  The inode is that of the object in the server's reply, which the kernel may know
already: an unchecked create returns an existing file.  So the assertion holds exactly if the kernel
holds no lookups of the object that the server names.
-/

namespace Hsfs

open Interact Interact.Act Daemon

/-! ## Outstanding lookups -/

/-- No outstanding lookups have been overwritten. -/
def Daemon.KeepsCounts (d d' : Daemon) : Prop :=
  ∀ p i, d.heap p = some i → i.priv ≠ 0 → ∃ i', d'.heap p = some i' ∧ i'.priv = i.priv

/-- The process has not run into the assertion, and no outstanding lookups have been overwritten. -/
def Daemon.NewRefOk (d : Daemon) (out : Except Fault Unit) (d' : Daemon) : Prop :=
  out ≠ .error (.abort .newRef) ∧ d.KeepsCounts d'

/-- The kernel holds no lookups of the objects that the server names, unless the operation fails
after that: the mode of a file that has been created exclusively has to be set. -/
def Daemon.NamesNew (d : Daemon) (excl : Bool) (es : List Event) : Prop :=
  (excl = true → ∃ attr, some attr ∈ setattrs es) → ∀ res ∈ named es, ∀ fileid fh,
    res.object = some (fileid, fh) → ∀ p i, d.Holds p fileid fh → d.heap p = some i → i.priv = 0

theorem Daemon.Extends.keepsCounts {d d' : Daemon} (h : d.Extends d') : d.KeepsCounts d' := by
  intro p i hi _
  obtain ⟨i', hi', -, hpriv⟩ := h.keep p i hi
  exact ⟨i', hi', hpriv⟩

/-- The count of an inode that had none is set. -/
theorem Daemon.Extends.keepsCounts_setInode {d d' : Daemon} (h : d.Extends d') {p : Addr}
    {j j' : Inode} (hj : d'.heap p = some j) (hzero : j.priv = 0) :
    d.KeepsCounts (d'.setInode p j') := by
  intro q i hi hne
  obtain ⟨i', hi', -, hpriv⟩ := h.keep q i hi
  have hqp : q ≠ p := by
    rintro rfl
    obtain rfl := Option.some.inj (hj.symm.trans hi')
    exact hne (hpriv.symm.trans hzero)
  exact ⟨i', (d'.setInode_heap_of_ne hqp j').trans hi', hpriv⟩

/-- An inode with lookups was there before. -/
theorem Daemon.Extends.holds_of_priv {d d' : Daemon} (h : d.Extends d') (hd : d.CacheOk) {p : Addr}
    {j : Inode} {fileid : UInt64} {fh : NfsFh} (hp : d'.Holds p fileid fh) (hj : d'.heap p = some j)
    (hne : j.priv ≠ 0) : d.Holds p fileid fh ∧ ∃ i, d.heap p = some i ∧ i.priv = j.priv := by
  obtain ⟨hmem, k, hk, hfileid, hfh⟩ := hp
  obtain rfl := Option.some.inj (hj.symm.trans hk)
  by_cases hold : p ∈ d.sb.idTable
  · obtain ⟨i, hi⟩ := hd.live p hold
    obtain ⟨i', hi', hsame, hpriv⟩ := h.keep p i hi
    obtain rfl := Option.some.inj (hj.symm.trans hi')
    exact ⟨⟨hold, i, hi, hsame.fileid.symm.trans hfileid, hsame.fh.symm.trans hfh⟩, i, hi,
      hpriv.symm⟩
  · obtain ⟨i', hi', hzero⟩ := h.new p hmem hold
    obtain rfl := Option.some.inj (hj.symm.trans hi')
    exact absurd hzero hne

/-! ## The answer -/

/-- How a handler that creates an object should end. -/
def Daemon.NewRefEnds (d₀ : Daemon) (excl : Bool) (x : Hs Unit) (d : Daemon) : Prop :=
  Ends (fun es _ d' ↦ d₀.NewRefOk (.ok ()) d' ↔ d₀.NamesNew excl es)
    (fun es e d' ↦ d₀.NewRefOk (.error e) d' ↔ d₀.NamesNew excl es) x d

/-- The object that has been got is answered with. -/
theorem Gotten.newRef {d d₁ : Daemon} (hd : d.CacheOk) (hd₁ : d₁.CacheOk) (hext : d.Extends d₁)
    {excl : Bool} {es : List Event} {res : Diropres3ok} {new : Addr} {harm : Bool}
    (hgot : Gotten res d₁ new harm) (hnamed : named es = [res])
    (hset : excl = true → ∃ attr, some attr ∈ setattrs es) (rep : EntryParam → Reply) :
    Ends (fun es' _ d' ↦ d.NewRefOk (.ok ()) d' ↔ d.NamesNew excl (es ++ es'))
      (fun es' e d' ↦ d.NewRefOk (.error e) d' ↔ d.NamesNew excl (es ++ es'))
      (replyNew rep 0 new) d₁ := by
  rw [replyNew, if_neg (fun h ↦ h rfl)]
  cases hgot with
  | bad hbad hnone =>
      rw [if_neg hbad.ne_null]
      refine .of_fault (newEntry_bad_run (hd₁.heap_of_bad hbad.nearBad) hbad.nearBad rep) ?_
      rw [List.append_nil]
      refine iff_of_true ⟨nofun, hext.keepsCounts⟩ fun _ r hr fileid fh hobj p i hp _ ↦ ?_
      rw [hnamed, List.mem_singleton] at hr
      exact absurd (hext.holds hp) (hnone fileid fh (hr ▸ hobj) p)
  | @inode fileid fh hobj hholds =>
      obtain ⟨j, hj⟩ := hd₁.live new hholds.1
      rw [if_neg (show new ≠ Addr.null from (hd₁.place new j hj).1)]
      by_cases hzero : j.priv = 0
      · obtain ⟨e, -, hrun⟩ := newEntry_run hj hzero rep
        refine .of_ret hrun ?_
        rw [List.append_nil]
        refine iff_of_true ⟨nofun, hext.keepsCounts_setInode hj hzero⟩ ?_
        intro _ r hr fileid' fh' hobj' p i hp hi
        rw [hnamed, List.mem_singleton] at hr
        rw [hr, hobj] at hobj'
        cases hobj'
        obtain rfl := hd₁.holds_unique (hext.holds hp) hholds
        obtain ⟨i', hi', -, hpriv⟩ := hext.keep p i hi
        obtain rfl := Option.some.inj (hj.symm.trans hi')
        exact hpriv.symm.trans hzero
      · refine .of_fault (newEntry_abort_run hj hzero rep) ?_
        rw [List.append_nil]
        refine iff_of_false (fun h ↦ h.1 rfl) fun hnew ↦ ?_
        obtain ⟨hold, i, hi, hpriv⟩ := hext.holds_of_priv hd hholds hj hzero
        have hmem : res ∈ named es := hnamed ▸ List.mem_singleton_self res
        exact hzero (hpriv.symm.trans (hnew hset res hmem fileid fh hobj new i hold hi))

/-- **An operation that creates an object, and the answer.** -/
theorem Daemon.Extends.newRefEnds {d d₀ : Daemon} (h : d.Extends d₀) (hd : d.CacheOk)
    (hd₀ : d₀.CacheOk) {excl : Bool} {x : Hs (Int × Addr)}
    (hx : Ends (fun es r d' ↦ Naming excl es d' r.1 r.2) (Strayed excl) x d₀)
    (hgrows : Evolves Grows x) (rep : EntryParam → Reply) :
    d.NewRefEnds excl (x >>= fun r ↦ replyNew rep r.1 r.2) d₀ := by
  refine (hx.and (.of_evolves hgrows d₀)).bind ?_ ?_
  · rintro es ⟨err, new⟩ d₁ ⟨hnaming, hgrows⟩
    obtain ⟨hd₁, hext⟩ := hgrows hd₀
    replace hext := h.trans hext
    dsimp only at hnaming ⊢
    -- an error is answered, and nothing else happens
    have hfailed (herr : err ≠ 0) (hnew : d.NamesNew excl es) :
        Ends (fun es' _ d' ↦ d.NewRefOk (.ok ()) d' ↔ d.NamesNew excl (es ++ es'))
          (fun es' e d' ↦ d.NewRefOk (.error e) d' ↔ d.NamesNew excl (es ++ es'))
          (replyNew rep err new) d₁ := by
      rw [replyNew, if_pos herr]
      refine .of_ret rfl ?_
      rw [List.append_nil]
      exact iff_of_true ⟨nofun, hext.keepsCounts⟩ hnew
    cases hnaming with
    | refused herr hnone =>
        refine hfailed herr fun _ res hres ↦ ?_
        rw [hnone] at hres
        exact absurd hres List.not_mem_nil
    | plain hexcl hnamed hgot =>
        exact hgot.newRef hd hd₁ hext hnamed (fun h ↦ nomatch hexcl.symm.trans h) rep
    | exclusive hexcl hnamed hharm hgot hset =>
        cases hset with
        | refused herr hnil =>
            refine hfailed herr fun h ↦ ?_
            obtain ⟨attr, hattr⟩ := h hexcl
            rw [hnil] at hattr
            exact absurd hattr List.not_mem_nil
        | bare hbare =>
            refine hfailed (by decide) fun h ↦ ?_
            obtain ⟨attr, hattr⟩ := h hexcl
            rw [hbare] at hattr
            exact nomatch List.mem_singleton.1 hattr
        | @done attr hdone =>
            exact hgot.newRef hd hd₁ hext hnamed
              (fun _ ↦ ⟨attr, hdone ▸ List.mem_singleton_self _⟩) rep
  · rintro es e d₁ ⟨⟨hexcl, -, hnil, -, rfl⟩, hgrows⟩
    obtain ⟨-, hext⟩ := hgrows hd₀
    refine iff_of_true ⟨nofun, (h.trans hext).keepsCounts⟩ fun h ↦ ?_
    obtain ⟨attr, hattr⟩ := h hexcl
    rw [hnil] at hattr
    exact absurd hattr List.not_mem_nil

/-! ## The handlers -/

/-- The requests that create an object. -/
def Request.createsObject : Request → Bool
  | .create _ _ _ _ _ _ | .mkdir _ _ _ | .mknod _ _ _ _ | .symlink _ _ _ => true
  | _ => false

/-- The file is to be created exclusively. -/
def Request.isExclusive : Request → Bool
  | .create _ _ mode flags _ _ => (createMode mode flags &&& 0xF0000) >>> 16 == 2
  | _ => false

/-- A handler that looks the parent up first. -/
theorem Daemon.CacheOk.newRefEnds_ilookup {d : Daemon} (hd : d.CacheOk) {excl : Bool} {ino : UInt64}
    {f : Option Addr → Hs Unit} {r : List Reply}
    (hnone : (f none).run d = .ret (.ok (), { d with replies := d.replies ++ r }))
    (hsome : ∀ p i, d.heap p = some i → d.NewRefEnds excl (f (some p)) d) :
    d.NewRefEnds excl (hsfsIlookup ino >>= f) d := by
  refine hd.ends_ilookup (fun _ ↦ .of_ret hnone (iff_of_true ⟨nofun, ?_⟩ ?_))
    fun p i _ hi ↦ hsome p i hi
  · exact fun p i hi _ ↦ ⟨i, hi, rfl⟩
  · exact fun _ res hres ↦ absurd hres List.not_mem_nil

theorem Request.newRefEnds {d : Daemon} (hd : d.CacheOk) (rounds : Nat) {req : Request}
    (hreq : req.createsObject = true) : d.NewRefEnds req.isExclusive (req.handle rounds) d := by
  have hrefl := Extends.refl d
  cases req with
  | create parent name mode flags uid gid =>
      refine hd.newRefEnds_ilookup (r := []) ?_ fun p i hi ↦ ?_
      · exact congrArg Prog.ret (by rw [List.append_nil])
      · -- the owner of the parent is overwritten first
        have hd₁ := hd.setInode hi (j :=
          { i with iattr := { i.iattr with uid := uid, gid := gid } })
          ⟨rfl, rfl, rfl, rfl, rfl⟩
        have hext : d.Extends
            (d.setInode p { i with iattr := { i.iattr with uid := uid, gid := gid } }) :=
          .setInode hi ⟨rfl, rfl, rfl, rfl, rfl⟩ rfl
        exact .ret_bind (update_run hi _) (hext.newRefEnds hd hd₁
          (ends_create hd₁ (d.setInode_heap_self p _) name (createMode mode flags))
          (HandleFrame.grows.create p name _) .create)
  | mkdir parent name mode =>
      refine hd.newRefEnds_ilookup (r := []) ?_ fun p i hi ↦ ?_
      · exact congrArg Prog.ret (by rw [List.append_nil])
      · exact hrefl.newRefEnds hd hd (ends_mkdir hd hi name mode)
          (HandleFrame.grows.mkdir p name mode)
          .entry
  | mknod parent name mode rdev =>
      exact hd.newRefEnds_ilookup rfl fun p i hi ↦ hrefl.newRefEnds hd hd
        (ends_mknod hd hi name mode rdev) (HandleFrame.grows.mknod p name mode rdev) .entry
  | symlink target parent name =>
      exact hd.newRefEnds_ilookup rfl fun p i hi ↦ hrefl.newRefEnds hd hd
        (ends_symlink hd hi target name) (HandleFrame.grows.symlink p target name) .entry
  | _ => exact nomatch hreq

/-- **The assertion holds, and no outstanding lookups are overwritten, if and only if the kernel
holds no lookups of the object that the server names.** -/
theorem Request.newRefOk_iff {req : Request} (hreq : req.createsObject = true) {rounds : Nat}
    {d d' : Daemon} {es : List Event} {out : Except Fault Unit} (hd : d.CacheOk)
    (hx : Prog.Exec Server.record ((req.handle rounds).run d) [] (out, d') es) :
    d.NewRefOk out d' ↔ d.NamesNew req.isExclusive es := by
  cases out with
  | ok a => exact (newRefEnds hd rounds hreq).exec_ok hx
  | error e => exact (newRefEnds hd rounds hreq).exec_error hx

/-- The file is created before anyone has looked it up. -/
theorem Request.newRefOk_iff_create :
    ∃ d es d', sampleMount = some d ∧ (Request.create 1 [102] 0o644 0 0 0).createsObject = true ∧
      d.CacheOk ∧ Prog.Exec Server.record (((Request.create 1 [102] 0o644 0 0 0).handle 0).run d) []
        (.ok (), d') es ∧
      (d.NewRefOk (.ok ()) d' ↔
        d.NamesNew (Request.create 1 [102] 0o644 0 0 0).isExclusive es) := by
  have hplay : (sampleMount.bind fun d ↦
      (Request.create 1 [102] 0o644 0 0 0).play createAnswer 0 d).isSome = true := by decide +kernel
  obtain ⟨⟨es, d'⟩, hplay⟩ := Option.isSome_iff_exists.1 hplay
  obtain ⟨d, hd, hplay⟩ := Option.bind_eq_some_iff.1 hplay
  have hcache := (mounted_of_play hd).extends_start.1
  unfold Request.play at hplay
  split at hplay
  · next heval =>
      cases hplay
      have hx := Prog.exec_record_of_eval heval
      exact ⟨d, es, d', hd, rfl, hcache, hx, newRefOk_iff rfl hcache hx⟩
  · exact nomatch hplay

/-- The file has been looked up under another name, and is then created. -/
theorem Request.not_newRefOk_always :
    ¬ ∀ (steps : List Step) (d d' : Daemon) (req : Request) (rounds : Nat) (es : List Event)
      (out : Except Fault Unit), Session (fun _ _ ↦ True) steps d → req.createsObject = true →
      Prog.Exec Server.record ((req.handle rounds).run d) [] (out, d') es → d.NewRefOk out d' := by
  intro h
  have hplay : (sampleMount.bind fun d ↦ (playSession (fun _ _ ↦ true) sampleAnswer 0
      [.init, .lookup 1 [102]] [] d).bind fun s ↦
        ((((Request.create 1 [103] 0o644 0 0 0).handle 0).run s.2).eval
          (Prog.recorded createAnswer) []).map fun r ↦ (s, r)).any
        (fun r ↦ match r.2 with
          | ((.error (.abort .newRef), _), _) => true
          | _ => false) = true := by decide +kernel
  obtain ⟨⟨⟨steps, d⟩, ⟨out, d'⟩, es⟩, hplay, hout⟩ := (Option.any_eq_true _ _).1 hplay
  obtain ⟨d₀, hd₀, hplay⟩ := Option.bind_eq_some_iff.1 hplay
  obtain ⟨⟨_, _⟩, hs, hplay⟩ := Option.bind_eq_some_iff.1 hplay
  obtain ⟨_, heval, heq⟩ := Option.map_eq_some_iff.1 hplay
  cases heq
  have hsession : Session (fun _ _ ↦ True) steps d :=
    (Session.of_play (.mounted (mounted_of_play hd₀)) hs).mono fun _ _ _ ↦ trivial
  have hok := h steps d d' (.create 1 [103] 0o644 0 0 0) 0 es out hsession rfl
    (Prog.exec_record_of_eval heval)
  split at hout
  · next hcase =>
      cases hcase
      exact hok.1 rfl
  · exact nomatch hout

end Hsfs
