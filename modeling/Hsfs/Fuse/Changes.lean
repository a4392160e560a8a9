import Hsfs.Fuse.Asks
import Hsfs.Nfs3.Volume

/-!
# What a request does to the volume

A request that is meant to change something on the server stands for one procedure, with the handles
of the inodes that it names (`Request.change`).  The reply of the server may be lost, and the daemon
then asks again.  Still the procedure is executed at most once, in effect, and if the kernel is told
of success, it has been executed.  A request that does not stand for a procedure changes nothing.

This is shown of the traces of the operations and the handlers, and holds of the volume by
`Carried.effect`.  Only a write is different, as there are as many calls as the server makes
necessary.
-/

namespace Hsfs

open Interact Interact.Act Daemon

/-! ## Success -/

/-- The reply tells of success. -/
def Reply.succeeds : Reply → Bool
  | .err e => e == 0
  | _ => true

/-- Between the two states, the kernel has been told of success. -/
def Daemon.Reports (d d' : Daemon) : Prop :=
  ∃ rep ∈ d'.replies.drop d.replies.length, rep.succeeds = true

/-- One reply has been sent. -/
theorem Daemon.reports_iff {d d' : Daemon} {rep : Reply} (h : d'.replies = d.replies ++ [rep]) :
    d.Reports d' ↔ rep.succeeds = true := by
  rw [Reports, h, List.drop_left]
  exact ⟨fun ⟨_, hmem, hrep⟩ ↦ List.mem_singleton.1 hmem ▸ hrep, fun hrep ↦ ⟨rep, .head _, hrep⟩⟩

/-! ## Harmless procedures -/

/-- A procedure that looks at something is harmless. -/
theorem Rpc.harmless_of_looks {req : Rpc} (h : req.looks = true) : req.Harmless := by
  refine harmless_of_part fun n s s' hdone ↦ ?_
  cases req with
  | setattr | write | create | mkdir | symlink | mknod | remove | rmdir | rename | link
  | setacl => exact nomatch h
  | _ => exact hdone

/-- Access control lists are not part of a volume. -/
theorem Rpc.harmless_setacl (fh : NfsFh) (acl : Secattr) : (Rpc.setacl fh acl).Harmless :=
  harmless_of_part fun _ _ _ hdone ↦ hdone

/-- Other attributes than the size are not part of a volume. -/
theorem Rpc.harmless_setattr {attrs : Sattr3} (h : attrs.size = none) (fh : NfsFh) :
    (Rpc.setattr fh attrs).Harmless := by
  refine harmless_of_part fun _ s s' hdone ↦ ?_
  change s' = s.resize fh attrs.size at hdone
  rwa [h] at hdone

/-- An exclusive create sets the mode of the file, and keeps its size. -/
theorem Asks.exclusive {α : Type} (new : Addr) (mode : UInt32) {f : Int → Hs α}
    (hf : ∀ err, Asks Rpc.Harmless (f err)) :
    Asks Rpc.Harmless (load new >>= fun i ↦ hsiNfsSetattr new (exclusiveIattr i mode) >>= f) := by
  have hr := AllocFrame.onlyAsks Rpc.Harmless
  intro d
  change Ends (fun es _ d' ↦ OnlyAsks Rpc.Harmless d es d')
    (fun es _ d' ↦ OnlyAsks Rpc.Harmless d es d') _ d
  cases hi : d.heap new with
  | some i =>
      have hsize : hasBits (hsiNfsSetattrValid i (exclusiveIattr i mode)) HsfsAttr.size =
        false := by
        have hsame : ¬ (exclusiveIattr i mode).size ≠ i.iattr.size := not_not_intro rfl
        rw [hasBits_hsiNfsSetattrValid_size, decide_eq_false hsame, Bool.and_false, Bool.and_false]
      have hharmless : (Rpc.setattr i.fh (sattr3OfIattr { exclusiveIattr i mode with
          valid := hsiNfsSetattrValid i (exclusiveIattr i mode) })).Harmless := by
        refine Rpc.harmless_setattr ?_ i.fh
        change (if hasBits (hsiNfsSetattrValid i (exclusiveIattr i mode)) HsfsAttr.size then _
          else _) = none
        rw [hsize]
        rfl
      refine .ret_bind (load_run hi) (ends_asks_bind (.ret_bind (load_run hi) ?_) hf)
      dsimp only
      rw [if_neg (hsiNfsSetattrValid_exclusiveIattr i i mode)]
      refine .ret_bind (derefSb_run hi)
        (ends_asks_bind (ends_setattr_asks hi default _ hharmless) ?_)
      exact fun _ ↦ hr.ite (hr.map (Asks.refresh _ _)) (hr.pure _)
  | none =>
      -- an error pointer has no superblock
      have hderef : (derefSb new).run d = .ret (.error .segv, d) := by simp [derefSb, hi]
      cases hbad : d.layout.nearBad new with
      | false =>
          have hload : (load new).run d = .ret (.error .segv, d) := by simp [load, hi, hbad]
          refine .of_fault (show _ = Prog.ret (Except.error Fault.segv, d) from ?_) (.of_nil rfl)
          rw [run_bind, hload]
          rfl
      | true =>
          have hload : (load new).run d = .ret (.ok Inode.zero, d) := by simp [load, hi, hbad]
          refine .ret_bind hload
            (.of_fault (show _ = Prog.ret (Except.error Fault.segv, d) from ?_) (.of_nil rfl))
          rw [run_bind, hsiNfsSetattr, run_bind_of_ret hload,
            if_neg (hsiNfsSetattrValid_exclusiveIattr _ _ _), run_bind, hderef]
          rfl

/-! ## Operations -/

/-- The code carries out a request, and tells by its result and the state of the daemon if it has
been executed. -/
def CarriesOut (req : Rpc) {α : Type} (x : Hs α) (ok : α → Daemon → Prop) (d : Daemon) : Prop :=
  Ends (fun es a d' ↦ Carried req es (ok a d')) (fun es _ _ ↦ Carried req es False) x d

theorem doneBy_eq {req req' : Rpc} {res : req.Res} (h : doneBy req res = some req') :
    req' = req := by
  unfold doneBy at h
  split at h
  all_goals first
    | exact (Option.some.inj h).symm
    | exact nomatch h

namespace CarriesOut

variable {req : Rpc} {α β : Type} {d : Daemon}

/-- Only harmless requests, and nothing is reported. -/
theorem of_harmless {x : Hs α} {ok : α → Daemon → Prop} (hx : Asks Rpc.Harmless x)
    (hok : Ends (fun _ a d' ↦ ¬ ok a d') (fun _ _ _ ↦ True) x d) : CarriesOut req x ok d := by
  refine ((Ends.of_evolves hx d).and hok).mono ?_ ?_
  · exact fun es a d' ⟨hes, hnot⟩ ↦ ⟨fun req' h ↦ .inr (hes req' h), fun h ↦ absurd h hnot⟩
  · exact fun es e d' ⟨hes, _⟩ ↦ ⟨fun req' h ↦ .inr (hes req' h), False.elim⟩

/-- Then a harmless end, which reports nothing if there is nothing to report. -/
theorem bind {x : Hs α} {ok : α → Daemon → Prop} {f : α → Hs β} {ok' : β → Daemon → Prop}
    (hx : CarriesOut req x ok d) (hf : ∀ a, Asks Rpc.Harmless (f a))
    (hnot : ∀ a d', ¬ ok a d' → Ends (fun _ b d'' ↦ ¬ ok' b d'') (fun _ _ _ ↦ True) (f a) d') :
    CarriesOut req (x >>= f) ok' d := by
  refine Ends.bind hx ?_ fun _ _ _ h ↦ h
  intro es a d₁ hes
  have hend := Ends.of_evolves (hf a) d₁
  by_cases hok : ok a d₁
  · exact hend.mono (fun es' b d' hes' ↦ hes.append hes' fun _ ↦ hok)
      fun es' e d' hes' ↦ hes.append hes' False.elim
  · exact (hend.and (hnot a d₁ hok)).mono
      (fun es' b d' ⟨hes', hnot⟩ ↦ hes.append hes' fun h ↦ absurd h hnot)
      fun es' e d' ⟨hes', _⟩ ↦ hes.append hes' False.elim

/-- The call has not succeeded. -/
def Refused : Except Int req.Res → Prop
  | .error err => err ≠ 0
  | .ok res => doneBy req res = none

/-- **First the call.**  What comes after it is harmless, and reports nothing unless the call has
succeeded. -/
theorem call_bind {x : Hs (Except Int req.Res)} {f : Except Int req.Res → Hs β}
    {ok : β → Daemon → Prop} (hx : Ends (Called d req) (fun _ _ _ ↦ False) x d)
    (hasks : Asks (· = req) x) (hf : ∀ a, Asks Rpc.Harmless (f a))
    (hnot : ∀ a d', Refused a → Ends (fun _ b d'' ↦ ¬ ok b d'') (fun _ _ _ ↦ True) (f a) d') :
    CarriesOut req (x >>= f) ok d := by
  have hcarries : CarriesOut req x (fun a _ ↦ ¬ Refused a) d := by
    refine (hx.and (.of_evolves hasks d)).mono ?_ fun _ _ _ h ↦ h.1.elim
    rintro es a d₁ ⟨⟨hcall, -⟩, hes⟩
    refine ⟨fun req' h ↦ .inl (hes req' h), fun hdone ↦ ?_⟩
    cases a with
    | error err => exact absurd hcall.err_ne_zero hdone
    | ok res =>
        obtain ⟨req', hreq'⟩ := Option.ne_none_iff_exists'.1 hdone
        rw [executed, hcall.picked_ok, hreq', doneBy_eq hreq']
        exact .head _
  exact hcarries.bind hf fun a d' h ↦ hnot a d' (not_not.1 h)

/-- First a test for memory. -/
theorem malloc_bind {f : Bool → Hs β} {ok : β → Daemon → Prop}
    (hf : ∀ got, CarriesOut req (f got) ok d) : CarriesOut req (malloc >>= f) ok d :=
  ends_malloc_bind fun got ↦ (hf got).mono (fun _ _ _ h ↦ ⟨h.asks, h.done⟩)
    fun _ _ _ h ↦ ⟨h.asks, h.done⟩

/-- Nothing is asked. -/
theorem pure {ok : α → Daemon → Prop} {a : α} (h : ¬ ok a d) : CarriesOut req (Pure.pure a) ok d :=
  of_harmless ((AllocFrame.onlyAsks Rpc.Harmless).pure a) (.pure h)

section calls

variable {f : Except Int req.Res → Hs β} {ok : β → Daemon → Prop}

theorem clnt_bind (hf : ∀ a, Asks Rpc.Harmless (f a))
    (hnot : ∀ a d', Refused a → Ends (fun _ b d'' ↦ ¬ ok b d'') (fun _ _ _ ↦ True) (f a) d') :
    CarriesOut req (hsiNfs3ClntCall d.sb.clntp req >>= f) ok d :=
  call_bind (ends_call (.inl rfl) req) (Asks.call (A := (· = req)) rfl _) hf hnot

theorem sb_bind (hf : ∀ a, Asks Rpc.Harmless (f a))
    (hnot : ∀ a d', Refused a → Ends (fun _ b d'' ↦ ¬ ok b d'') (fun _ _ _ ↦ True) (f a) d') :
    CarriesOut req (callSb req >>= f) ok d :=
  call_bind (ends_callSb req) (Asks.callSb (A := (· = req)) rfl) hf hnot

end calls

variable {p q : Addr} {i j : Inode}

theorem unlink (hi : d.heap p = some i) (name : Name) :
    CarriesOut (.remove i.fh name) (hsiNfs3Unlink p name) (fun err _ ↦ err = 0) d := by
  have hr := AllocFrame.onlyAsks Rpc.Harmless
  refine .ret_bind (x := sbClntp) rfl (.ret_bind (getfh3_run hi)
    (clnt_bind (fun
      | .error _ => hr.pure _
      | .ok (.fail _) => hr.map (Asks.freeres _)
      | .ok (.ok _) => hr.map (Asks.freeres _)) ?_))
  rintro (err | res | status) d' hrefused
  · exact .pure hrefused
  · exact nomatch hrefused
  · exact .of_ret rfl (hsiNfs3StatToErrno_ne_zero status.2)

theorem rmdir (hi : d.heap p = some i) (name : Name) :
    CarriesOut (.rmdir i.fh name) (hsiNfs3Rmdir p name) (fun err _ ↦ err = 0) d := by
  have hr := AllocFrame.onlyAsks Rpc.Harmless
  refine .ret_bind (getfh3_run hi) (sb_bind (fun
      | .error _ => hr.pure _
      | .ok (.fail _) => hr.map Asks.freeresSb
      | .ok (.ok _) => hr.map Asks.freeresSb) ?_)
  rintro (err | res | status) d' hrefused
  · exact .pure hrefused
  · exact nomatch hrefused
  · exact .of_ret rfl (hsiNfs3StatToErrno_ne_zero status.2)

theorem rename (hi : d.heap p = some i) (hj : d.heap q = some j) (name newname : Name) :
    CarriesOut (.rename i.fh name j.fh newname) (hsiNfs3Rename p name q newname)
      (fun err _ ↦ err = 0) d := by
  have hr := AllocFrame.onlyAsks Rpc.Harmless
  refine .ret_bind (x := sbClntp) rfl (.ret_bind (getfh3_run hi) (.ret_bind (getfh3_run hj)
    (clnt_bind (fun
      | .error _ => hr.pure _
      | .ok (.fail _) => hr.map (Asks.freeres _)
      | .ok (.ok _) => hr.map (Asks.freeres _)) ?_)))
  rintro (err | res | status) d' hrefused
  · exact .pure hrefused
  · exact nomatch hrefused
  · exact .of_ret rfl (hsiNfs3StatToErrno_ne_zero status.2)

/-- **mkdir, mknod and symlink** report success only if their call has succeeded. -/
theorem making {free : Hs Unit} {f : Except Int req.Res → Hs (Int × Addr)}
    {x : Hs (Except Int req.Res)} (h : Makes free req f)
    (hx : Ends (Called d req) (fun _ _ _ ↦ False) x d) (hasks : Asks (· = req) x)
    (hfree : Asks Rpc.Harmless free) : CarriesOut req (x >>= f) (fun r _ ↦ r.1 = 0) d := by
  cases h
  all_goals
    refine call_bind hx hasks (Asks.newOfReply hfree) ?_
    rintro (err | res | status) d' hrefused
    · exact .pure hrefused
    · exact nomatch hrefused
    · have hany : Ends (fun _ _ _ ↦ True) (fun _ _ _ ↦ True) free d' :=
        .of_forall (fun _ _ _ ↦ trivial) fun _ _ _ ↦ trivial
      exact hany.bind (fun _ _ _ _ ↦ .pure (hsiNfs3StatToErrno_ne_zero status.2)) fun _ _ _ h ↦ h

theorem mkdir (hi : d.heap p = some i) (name : Name) (mode : UInt32) :
    CarriesOut (.mkdir i.fh name { mode := some (mode &&& 0xfff) }) (hsiNfs3Mkdir p name mode)
      (fun r _ ↦ r.1 = 0) d :=
  .ret_bind (getfh3_run hi)
    (making (.mkdir _ _ _) (ends_callSb _) (Asks.callSb rfl) Asks.freeresSb)

theorem symlink (hi : d.heap p = some i) (target name : Name) :
    CarriesOut (.symlink i.fh name {} target) (hsiNfs3Symlink p target name)
      (fun r _ ↦ r.1 = 0) d :=
  .ret_bind (getfh3_run hi)
    (making (.symlink _ _ _ _) (ends_callSb _) (Asks.callSb rfl) Asks.freeresSb)

theorem mknod (hi : d.heap p = some i) (name : Name) (mode : UInt32) (rdev : UInt64) :
    CarriesOut (.mknod i.fh name (mknoddata3Of mode rdev)) (hsiNfs3Mknod p name mode rdev)
      (fun r _ ↦ r.1 = 0) d := by
  unfold hsiNfs3Mknod
  split
  · exact .pure (by decide)
  refine .ret_bind (getfh3_run hi) (malloc_bind fun got ↦ ?_)
  cases got with
  | false => exact .pure (by decide)
  | true =>
      exact .ret_bind (x := sbClntp) rfl
        (making (.mknod _ _ _) (ends_call (.inl rfl) _) (Asks.call (A := (· = _)) rfl _)
          (Asks.freeres _))

theorem link (hi : d.heap p = some i) (hj : d.heap q = some j) (name : Name) :
    CarriesOut (.link i.fh j.fh name) (hsiNfs3Link p q name) (fun err _ ↦ err = 0) d := by
  have hr := AllocFrame.onlyAsks Rpc.Harmless
  unfold hsiNfs3Link
  split
  · exact .pure (by decide)
  refine .ret_bind (getfh3_run hi) (.ret_bind (getfh3_run hj) (malloc_bind fun got ↦ ?_))
  cases got with
  | false => exact .pure (by decide)
  | true =>
      refine .ret_bind (x := sbClntp) rfl (clnt_bind (fun
        | .error _ => hr.pure _
        | .ok (.fail _) => hr.map (Asks.freeres _)
        | .ok (.ok _) =>
            hr.ite (hr.bind (Asks.refresh _ _) fun _ ↦ hr.map (Asks.freeres _))
              (hr.bind (Leads.getattr _ _ fun _ ↦ Rpc.harmless_of_looks rfl).only fun _ ↦
                hr.map (Asks.freeres _))) ?_)
      rintro (err | res | status) d' hrefused
      · exact .pure hrefused
      · exact nomatch hrefused
      · exact .of_ret rfl (hsiNfs3StatToErrno_ne_zero status.2)

theorem setattr3 (hi : d.heap p = some i) (fattr : NfsFattr) (attr : HsfsIattr) :
    CarriesOut (.setattr i.fh (sattr3OfIattr attr)) (hsiNfs3Setattr p fattr attr)
      (fun r _ ↦ r.1 = 0) d := by
  have hr := AllocFrame.onlyAsks Rpc.Harmless
  refine .ret_bind (x := sbClntp) rfl (.ret_bind (getfh3_run hi) (clnt_bind (fun
    | .error _ => hr.pure _
    | .ok (.fail _) => hr.map (Asks.freeres _)
    | .ok (.ok _) => hr.map (Asks.freeres _)) ?_))
  rintro (err | res | status) d' hrefused
  · exact .pure hrefused
  · exact nomatch hrefused
  · exact .of_ret rfl (hsiNfs3StatToErrno_ne_zero status.2)

/-- `hsi_nfs_setattr`, if there is something to set. -/
theorem setattr (hi : d.heap p = some i) {attr : HsfsIattr}
    (hvalid : hsiNfsSetattrValid i attr ≠ 0) :
    CarriesOut (.setattr i.fh (sattr3OfIattr { attr with valid := hsiNfsSetattrValid i attr }))
      (hsiNfsSetattr p attr) (fun err _ ↦ err = 0) d := by
  have hr := AllocFrame.onlyAsks Rpc.Harmless
  refine .ret_bind (load_run hi) ?_
  dsimp only
  rw [if_neg hvalid]
  refine .ret_bind (derefSb_run hi) ((setattr3 hi default _).bind (fun _ ↦ ?_) ?_)
  · exact hr.ite (hr.map (Asks.refresh _ _)) (hr.pure _)
  · rintro ⟨error, fattr⟩ d' herror
    change error ≠ 0 at herror
    dsimp only
    rw [if_neg herror]
    exact .pure herror

theorem create (hi : d.heap p = some i) (name : Name) (mode : UInt32) :
    CarriesOut (.create i.fh name (createhow3Of i mode)) (hsiNfs3Create p name mode)
      (fun r _ ↦ r.1 = 0) d := by
  have hr := AllocFrame.onlyAsks Rpc.Harmless
  refine .ret_bind (load_run hi) (.ret_bind (x := sbClntp) rfl (clnt_bind (fun
    | .error _ => hr.pure _
    | .ok (.fail _) => hr.map (Asks.freeres _)
    | .ok (.ok _) => hr.bind (Asks.handleCreate _) fun new ↦
        hr.ite (hr.get_bind fun _ ↦ hr.map (Asks.freeres _)) <|
          hr.ite (Asks.exclusive new mode fun _ ↦ hr.map (Asks.freeres _))
            (hr.map (Asks.freeres _))) ?_))
  rintro (err | res | status) d' hrefused
  · exact .pure hrefused
  · exact nomatch hrefused
  · exact .of_ret rfl (hsiNfs3StatToErrno_ne_zero status.2)

/-- Then the reply: an error is sent as it is. -/
theorem reply {x : Hs α} {err : α → Int} {f : α → Hs Unit}
    (hx : CarriesOut req x (fun a _ ↦ err a = 0) d) (hsilent : Evolves Silent x)
    (hf : ∀ a, Asks Rpc.Harmless (f a)) (hrep : ∀ a, err a ≠ 0 → f a = fuseReply (.err (err a))) :
    CarriesOut req (x >>= f) (fun _ d' ↦ d.Reports d') d := by
  have hboth : CarriesOut req x (fun a d' ↦ ¬(err a ≠ 0 ∧ d'.replies = d.replies)) d := by
    refine (Ends.and hx (.of_evolves hsilent d)).mono ?_ fun _ _ _ h ↦ h.1
    rintro es a d' ⟨hes, hquiet⟩
    refine ⟨hes.asks, fun h ↦ hes.done ?_⟩
    by_contra herr
    exact h ⟨herr, hquiet.replies⟩
  refine hboth.bind hf fun a d₁ h ↦ ?_
  obtain ⟨herr, hsame⟩ := not_not.1 h
  rw [hrep a herr]
  refine .of_ret rfl fun hreports ↦ ?_
  have hone := (Daemon.reports_iff (congrArg (· ++ [Reply.err (err a)]) hsame)).1 hreports
  exact herr (beq_iff_eq.1 hone)

/-- A request that is refused at once. -/
theorem refuse {e : Int} (he : e ≠ 0) :
    CarriesOut req (fuseReply (.err e)) (fun _ d' ↦ d.Reports d') d := by
  refine .of_harmless (Asks.reply _) (.of_ret rfl fun hreports ↦ he ?_)
  have hone : Reply.succeeds (.err e) = true := (Daemon.reports_iff rfl).1 hreports
  exact beq_iff_eq.1 hone

end CarriesOut

/-! ## Requests -/

/-- The inode that a number stands for. -/
def Daemon.inode (d : Daemon) (ino : UInt64) : Option Inode := (d.ilookup ino).bind d.heap

theorem Daemon.inode_eq_some_iff {d : Daemon} {ino : UInt64} {i : Inode} :
    d.inode ino = some i ↔ ∃ p, d.ilookup ino = some p ∧ d.heap p = some i :=
  Option.bind_eq_some_iff

/-- The procedure that a request stands for.  A write is one procedure here, whatever pieces it is
cut into. -/
def Request.change (d : Daemon) : Request → Option Rpc
  | .mkdir parent name mode => (d.inode parent).map fun i ↦
      .mkdir i.fh name { mode := some (mode &&& 0xfff) }
  | .write ino buf off directIo => (d.inode ino).map fun i ↦
      .write i.fh off buf.length.toUInt32 (if directIo then hsfsFileSync else hsfsUnstable) buf
  | .setattr ino attr toSet => (d.inode ino).bind fun i ↦
      if hsiNfsSetattrValid i (hsxFuseStat2iattr attr toSet default) = 0 then none
      else some (.setattr i.fh (sentSattr attr toSet i))
  | .rmdir parent name => (d.inode parent).map fun i ↦ .rmdir i.fh name
  | .unlink parent name => (d.inode parent).map fun i ↦ .remove i.fh name
  | .symlink target parent name => (d.inode parent).map fun i ↦ .symlink i.fh name {} target
  | .rename parent name newparent newname => (d.inode parent).bind fun i ↦
      (d.inode newparent).map fun j ↦ .rename i.fh name j.fh newname
  | .mknod parent name mode rdev => (d.inode parent).map fun i ↦
      .mknod i.fh name (mknoddata3Of mode rdev)
  | .link ino newparent newname => (d.inode ino).bind fun i ↦
      (d.inode newparent).map fun j ↦ .link i.fh j.fh newname
  | .create parent name mode flags uid gid => (d.inode parent).map fun i ↦
      .create i.fh name (createhow3Of { i with iattr := { i.iattr with uid := uid, gid := gid } }
        (createMode mode flags))
  | _ => none

/-- The request is a write. -/
def Request.isWrite : Request → Bool
  | .write _ _ _ _ => true
  | _ => false

/-- **A request carries out the procedure that it stands for.** -/
theorem Request.carries {req : Request} {d : Daemon} {rpc : Rpc} (h : req.change d = some rpc)
    (hwrite : req.isWrite = false) (rounds : Nat) :
    CarriesOut rpc (req.handle rounds) (fun _ d' ↦ d.Reports d') d := by
  have hs := HandleFrame.silent
  cases req with
  | mkdir parent name mode =>
      obtain ⟨i, hi, rfl⟩ := Option.map_eq_some_iff.1 h
      obtain ⟨p, hp, hi⟩ := Daemon.inode_eq_some_iff.1 hi
      refine .ret_bind (hsfsIlookup_run hp hi) ((CarriesOut.mkdir hi name mode).reply
        (hs.mkdir _ _ _) (fun _ ↦ Asks.replyNew _ _ _) ?_)
      exact fun r herr ↦ if_pos herr
  | write ino buf off directIo => exact nomatch hwrite
  | setattr ino attr toSet =>
      have hr := AllocFrame.onlyAsks Rpc.Harmless
      obtain ⟨i, hi, hsent⟩ := Option.bind_eq_some_iff.1 h
      obtain ⟨p, hp, hi⟩ := Daemon.inode_eq_some_iff.1 hi
      split at hsent
      · exact nomatch hsent
      · next hvalid =>
          obtain rfl := Option.some.inj hsent
          refine .ret_bind (hsfsIlookup_run hp hi) ((CarriesOut.setattr hi hvalid).reply
            (hs.setattr _ _) (fun _ ↦ ?_) ?_)
          · exact hr.ite (Asks.reply _) <| hr.bind (hr.load _) fun _ ↦
              hr.bind ((Asks.touchFrame _).attrTimeout _) fun _ ↦ Asks.reply _
          · exact fun err herr ↦ if_pos herr
  | rmdir parent name =>
      obtain ⟨i, hi, rfl⟩ := Option.map_eq_some_iff.1 h
      obtain ⟨p, hp, hi⟩ := Daemon.inode_eq_some_iff.1 hi
      exact .ret_bind (hsfsIlookup_run hp hi) ((CarriesOut.rmdir hi name).reply (hs.rmdir _ _)
        (fun _ ↦ Asks.reply _) fun _ _ ↦ rfl)
  | unlink parent name =>
      obtain ⟨i, hi, rfl⟩ := Option.map_eq_some_iff.1 h
      obtain ⟨p, hp, hi⟩ := Daemon.inode_eq_some_iff.1 hi
      change CarriesOut _ (hsxFuseUnlink parent name) _ d
      unfold hsxFuseUnlink
      split
      · exact .refuse (by decide)
      split
      · exact .refuse (by decide)
      exact .ret_bind (hsfsIlookup_run hp hi) ((CarriesOut.unlink hi name).reply (hs.unlink _ _)
        (fun _ ↦ Asks.reply _) fun _ _ ↦ rfl)
  | symlink target parent name =>
      obtain ⟨i, hi, rfl⟩ := Option.map_eq_some_iff.1 h
      obtain ⟨p, hp, hi⟩ := Daemon.inode_eq_some_iff.1 hi
      refine .ret_bind (hsfsIlookup_run hp hi) ((CarriesOut.symlink hi target name).reply
        (hs.symlink _ _ _) (fun _ ↦ Asks.replyNew _ _ _) ?_)
      exact fun r herr ↦ if_pos herr
  | rename parent name newparent newname =>
      obtain ⟨i, hi, h⟩ := Option.bind_eq_some_iff.1 h
      obtain ⟨p, hp, hi⟩ := Daemon.inode_eq_some_iff.1 hi
      obtain ⟨j, hj, rfl⟩ := Option.map_eq_some_iff.1 h
      obtain ⟨q, hq, hj⟩ := Daemon.inode_eq_some_iff.1 hj
      change CarriesOut _ (hsxFuseRename parent name newparent newname) _ d
      unfold hsxFuseRename
      split
      · exact .refuse (by decide)
      split
      · exact .refuse (by decide)
      split
      · exact .refuse (by decide)
      split
      · exact .refuse (by decide)
      exact .ret_bind (hsfsIlookup_run hp hi) (.ret_bind (hsfsIlookup_run hq hj)
        ((CarriesOut.rename hi hj name newname).reply (hs.rename _ _ _ _) (fun _ ↦ Asks.reply _)
          fun _ _ ↦ rfl))
  | mknod parent name mode rdev =>
      obtain ⟨i, hi, rfl⟩ := Option.map_eq_some_iff.1 h
      obtain ⟨p, hp, hi⟩ := Daemon.inode_eq_some_iff.1 hi
      refine .ret_bind (hsfsIlookup_run hp hi) ((CarriesOut.mknod hi name mode rdev).reply
        (hs.mknod _ _ _ _) (fun _ ↦ Asks.replyNew _ _ _) ?_)
      exact fun r herr ↦ if_pos herr
  | link ino newparent newname =>
      have hr := Asks.touchFrame Rpc.Harmless
      obtain ⟨i, hi, h⟩ := Option.bind_eq_some_iff.1 h
      obtain ⟨p, hp, hi⟩ := Daemon.inode_eq_some_iff.1 hi
      obtain ⟨j, hj, rfl⟩ := Option.map_eq_some_iff.1 h
      obtain ⟨q, hq, hj⟩ := Daemon.inode_eq_some_iff.1 hj
      refine .ret_bind (hsfsIlookup_run hq hj) (.ret_bind (hsfsIlookup_run hp hi)
        ((CarriesOut.link hi hj newname).reply (hs.link _ _ _) (fun _ ↦ ?_) ?_))
      · exact hr.ite (Asks.reply _) <| hr.bind hr.malloc fun _ ↦
          hr.ite (hr.bind (hr.fillReply _) fun _ ↦ Asks.reply _) (Asks.reply _)
      · exact fun err herr ↦ if_pos herr
  | create parent name mode flags uid gid =>
      obtain ⟨i, hi, rfl⟩ := Option.map_eq_some_iff.1 h
      obtain ⟨p, hp, hi⟩ := Daemon.inode_eq_some_iff.1 hi
      refine .ret_bind (hsfsIlookup_run hp hi) (.ret_bind (update_run hi _) ?_)
      refine (CarriesOut.create (Daemon.setInode_heap_self _ _ _) name _).reply (hs.create _ _ _)
        (fun _ ↦ Asks.replyNew _ _ _) ?_
      exact fun r herr ↦ if_pos herr
  | _ => exact nomatch h

/-! ## Requests that change nothing -/

/-- The code makes only harmless calls, from this state on. -/
abbrev HarmlessFrom {α : Type} (x : Hs α) (d : Daemon) : Prop :=
  Ends (fun es _ d' ↦ OnlyAsks Rpc.Harmless d es d')
    (fun es _ d' ↦ OnlyAsks Rpc.Harmless d es d') x d

namespace HarmlessFrom

variable {α : Type} {d : Daemon}

/-- There is no inode with the number, or it has been freed. -/
theorem ilookup_bind {ino : UInt64} (h : d.inode ino = none) {f : Option Addr → Hs α}
    (hnone : Asks Rpc.Harmless (f none)) : HarmlessFrom (hsfsIlookup ino >>= f) d := by
  rcases d.hsfsIlookup_cases ino with ⟨-, hrun⟩ | ⟨p, i, hp, hi, -⟩ | ⟨p, -, -, hrun⟩
  · exact .ret_bind hrun (.of_evolves hnone d)
  · exact nomatch h.symm.trans (Daemon.inode_eq_some_iff.2 ⟨p, hp, hi⟩)
  · refine .of_fault (show _ = Prog.ret (Except.error Fault.segv, d) from ?_) (.of_nil rfl)
    rw [run_bind, hrun]
    rfl

theorem malloc_bind {f : Bool → Hs α} (hf : ∀ got, HarmlessFrom (f got) d) :
    HarmlessFrom (malloc >>= f) d :=
  ends_malloc_bind hf

end HarmlessFrom

/-- **A request that stands for no procedure makes only harmless calls.** -/
theorem Request.harmlessFrom {req : Request} {d : Daemon} (h : req.change d = none) (rounds : Nat) :
    HarmlessFrom (req.handle rounds) d := by
  have hr := Asks.touchFrame Rpc.Harmless
  have hreply (rep : Reply) : HarmlessFrom (fuseReply rep) d := .of_evolves (Asks.reply rep) d
  cases req with
  | mkdir parent name mode => exact .ilookup_bind (Option.map_eq_none_iff.1 h) (hr.pure _)
  | write ino buf off directIo =>
      refine .malloc_bind fun got ↦ ?_
      cases got with
      | true => exact .ilookup_bind (Option.map_eq_none_iff.1 h) (Asks.reply _)
      | false => exact hreply _
  | setattr ino attr toSet =>
      rcases Option.eq_none_or_eq_some (d.inode ino) with hnone | ⟨i, hi⟩
      · exact .ilookup_bind hnone (Asks.reply _)
      · obtain ⟨p, hp, hlive⟩ := Daemon.inode_eq_some_iff.1 hi
        change (d.inode ino).bind _ = none at h
        rw [hi] at h
        have hvalid : hsiNfsSetattrValid i (hsxFuseStat2iattr attr toSet default) = 0 := by
          by_contra hne
          exact nomatch (if_neg hne).symm.trans h
        refine .ret_bind (hsfsIlookup_run hp hlive)
          (ends_asks_bind (.ret_bind (load_run hlive) ?_) ?_)
        · -- there is nothing to set
          dsimp only
          rw [if_pos hvalid]
          exact .pure (.of_nil rfl)
        · exact fun _ ↦ hr.ite (Asks.reply _) <| hr.bind (hr.load _) fun _ ↦
            hr.bind (hr.attrTimeout _) fun _ ↦ Asks.reply _
  | rmdir parent name => exact .ilookup_bind (Option.map_eq_none_iff.1 h) (hr.pure _)
  | unlink parent name =>
      change HarmlessFrom (hsxFuseUnlink parent name) d
      unfold hsxFuseUnlink
      split
      · exact hreply _
      split
      · exact hreply _
      exact .ilookup_bind (Option.map_eq_none_iff.1 h) (Asks.reply _)
  | symlink target parent name => exact .ilookup_bind (Option.map_eq_none_iff.1 h) (Asks.reply _)
  | rename parent name newparent newname =>
      change HarmlessFrom (hsxFuseRename parent name newparent newname) d
      unfold hsxFuseRename
      split
      · exact hreply _
      split
      · exact hreply _
      split
      · exact hreply _
      split
      · exact hreply _
      rcases Option.eq_none_or_eq_some (d.inode parent) with hnone | ⟨i, hi⟩
      · exact .ilookup_bind hnone (Asks.reply _)
      · obtain ⟨p, hp, hlive⟩ := Daemon.inode_eq_some_iff.1 hi
        change (d.inode parent).bind _ = none at h
        rw [hi] at h
        exact .ret_bind (hsfsIlookup_run hp hlive)
          (HarmlessFrom.ilookup_bind (Option.map_eq_none_iff.1 h) (Asks.reply _))
  | mknod parent name mode rdev => exact .ilookup_bind (Option.map_eq_none_iff.1 h) (Asks.reply _)
  | link ino newparent newname =>
      rcases Option.eq_none_or_eq_some (d.inode newparent) with hnone | ⟨j, hj⟩
      · exact .ilookup_bind hnone (hr.pure _)
      · obtain ⟨q, hq, hlive⟩ := Daemon.inode_eq_some_iff.1 hj
        have hnone : d.inode ino = none := by
          refine Option.eq_none_iff_forall_ne_some.2 fun i hi ↦ ?_
          change (d.inode ino).bind _ = none at h
          rw [hi] at h
          exact nomatch hj.symm.trans (Option.map_eq_none_iff.1 h)
        exact .ret_bind (hsfsIlookup_run hq hlive) (HarmlessFrom.ilookup_bind hnone (hr.pure _))
  | create parent name mode flags uid gid =>
      exact .ilookup_bind (Option.map_eq_none_iff.1 h) (hr.pure _)
  | setxattr ino name value =>
      refine .of_evolves ((Asks.handle _ rounds).mono fun _ _ _ hes rpc hrpc ↦ ?_) d
      have hmay := hes rpc hrpc
      cases rpc with
      | getacl fh mask => exact Rpc.harmless_of_looks rfl
      | setacl fh acl => exact Rpc.harmless_setacl fh acl
      | _ => exact hmay.elim False.elim False.elim
  | _ =>
      refine .of_evolves ((Asks.handle _ rounds).mono fun _ _ _ hes rpc hrpc ↦ ?_) d
      exact Rpc.harmless_of_looks ((hes rpc hrpc).looks rfl)

end Hsfs
