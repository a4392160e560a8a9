import Hsfs.Fuse.Changes

/-!
# Sessions on a network that loses messages

The invariant of the loop of `hsx_fuse_write` is about the bytes in the file: what the server has
acknowledged is there, and what it has stored without an acknowledgement may be there.

With this, each step of a session has an effect on the volume that the request alone explains
(`Request.effect`), and so has the session as a whole (`session_explained`).
-/

namespace Hsfs

open Interact Interact.Act Daemon

/-! ## Writing -/

/-- At least the first `cnt` bytes of the buffer are in the file. -/
def Wrote (fh : NfsFh) (off : Nat) (buf : List UInt8) (cnt : Nat) (s s' : Volume) : Prop :=
  ∃ m, cnt ≤ m ∧ (buf.take m ≠ [] → s.data fh ≠ none) ∧ s' = s.modify fh (written off (buf.take m))

section write

variable {fh : NfsFh} {off : Nat} {buf : List UInt8} {cnt : Nat} {s s' s'' : Volume}

theorem Wrote.refl (fh : NfsFh) (off : Nat) (buf : List UInt8) (s : Volume) :
    Wrote fh off buf 0 s s :=
  ⟨0, Nat.le_refl 0, fun h ↦ absurd rfl h, (s.modify_id fh).symm⟩

theorem Wrote.mono {n : Nat} (h : Wrote fh off buf cnt s s') (hle : n ≤ cnt) :
    Wrote fh off buf n s s' := by
  obtain ⟨m, hm, hrest⟩ := h
  exact ⟨m, hle.trans hm, hrest⟩

/-- A piece is written behind what is there. -/
theorem Wrote.piece {k : Nat} (h : Wrote fh off buf cnt s s') (hcnt : cnt ≤ buf.length)
    (hthere : (buf.drop cnt).take k ≠ [] → s'.data fh ≠ none)
    (hs'' : s'' = s'.modify fh (written (off + cnt) ((buf.drop cnt).take k))) :
    Wrote fh off buf (cnt + k) s s'' := by
  obtain ⟨m, hm, hthere₀, rfl⟩ := h
  refine ⟨max m (cnt + k), Nat.le_max_right .., fun hsome hnone ↦ ?_, ?_⟩
  · have hfirst : buf.take m = [] := by
      by_contra hne
      exact hthere₀ hne hnone
    have hpiece : (buf.drop cnt).take k = [] := by
      by_contra hne
      exact hthere hne (by rw [Volume.modify_data, hnone]; rfl)
    -- nothing has been written
    rcases List.take_eq_nil_iff.1 hfirst with rfl | rfl
    · obtain rfl := Nat.le_zero.1 hm
      rcases List.take_eq_nil_iff.1 hpiece with rfl | hnil
      · exact hsome rfl
      · exact hsome (List.take_eq_nil_iff.2 (.inr hnil))
    · exact hsome List.take_nil
  · rw [hs'', Volume.modify_modify]
    exact congrArg (s.modify fh) (funext (written_piece hm hcnt k))

/-- What the server does with a piece. -/
theorem Wrote.serves {off : UInt64} (h : Wrote fh off.toNat buf cnt s s')
    (hsize : off.toNat + buf.length < 2 ^ 63) (hcnt : cnt ≤ buf.length) {n : Nat}
    {size stable : UInt32} {res : (Rpc.write fh (off + cnt.toUInt64) size stable
      ((buf.drop cnt).take n)).Res}
    (hserves : volumeServes (.write fh (off + cnt.toUInt64) size stable ((buf.drop cnt).take n))
      s' res s'') :
    Wrote fh off.toNat buf cnt s s'' ∧ ∀ count, res = .ok count →
      cnt + count.toNat ≤ buf.length ∧ Wrote fh off.toNat buf (cnt + count.toNat) s s'' := by
  cases res with
  | fail status =>
      obtain rfl : s'' = s' := hserves
      exact ⟨h, fun _ heq ↦ nomatch heq⟩
  | ok count =>
      obtain ⟨hcount, hthere, hs''⟩ := hserves
      rw [List.length_take, List.length_drop] at hcount
      have htake : ((buf.drop cnt).take n).take count.toNat = (buf.drop cnt).take count.toNat := by
        rw [List.take_take, Nat.min_eq_left (by omega)]
      rw [htake] at hthere hs''
      rw [toNat_offset_add (by omega)] at hs''
      have hwrote := h.piece hcnt hthere hs''
      refine ⟨hwrote.mono (Nat.le_add_right ..), fun count' heq ↦ ?_⟩
      obtain rfl := Nfs3res.ok.inj heq
      exact ⟨by omega, hwrote⟩

variable {d : Daemon} {p : Addr} {i : Inode}

/-- **`hsi_nfs3_write`**, with a piece of the buffer. -/
theorem wp_hsiNfs3Write_volume {off : UInt64} (hi : d.heap p = some i)
    (hsize : off.toNat + buf.length < 2 ^ 63) (hcnt : cnt ≤ buf.length)
    (h : Wrote i.fh off.toNat buf cnt s s') (n : Nat) (size stable : UInt32) :
    wp (network volumeServes)
      (hsiNfs3Write p (off + cnt.toUInt64) size stable ((buf.drop cnt).take n))
      (CallPost (fun count d' s'' ↦ ClientsOnly d [] d' ∧ cnt + count.toNat ≤ buf.length ∧
          Wrote i.fh off.toNat buf (cnt + count.toNat) s s'')
        fun d' s'' ↦ ClientsOnly d [] d' ∧ Wrote i.fh off.toNat buf cnt s s'')
      (fun _ _ _ ↦ False) d s' := by
  unfold hsiNfs3Write sbClntp
  simp only [wp_bind, wp_get, wp_pure, wp_of_ret (getfh3_run hi)]
  have hattempts : Attempts (network volumeServes)
      (.write i.fh (off + cnt.toUInt64) size stable ((buf.drop cnt).take n))
      (Wrote i.fh off.toNat buf cnt s) fun res s'' ↦ Wrote i.fh off.toNat buf cnt s s'' ∧
        ∀ count, res = .ok count → cnt + count.toNat ≤ buf.length ∧
          Wrote i.fh off.toNat buf (cnt + count.toNat) s s'' :=
    .network fun _ _ _ hP hS ↦ ⟨(hP.serves hsize hcnt hS).1, hP.serves hsize hcnt hS⟩
  refine wp_mono ?_ (fun _ _ _ hnot ↦ hnot (.inl rfl)) (wp_call_server hattempts _ h)
  rintro (err | count | status) d₁ s₁ hpost
  · exact hpost
  · exact ⟨hpost.1.useClient _ _, hpost.2.2 count rfl⟩
  · exact ⟨hsiNfs3StatToErrno_ne_zero status.2, hpost.1.useClient _ _, hpost.2.1⟩

/-- **The loop of `hsx_fuse_write`**: what the server has acknowledged is in the file, and what it
has not acknowledged may be. -/
theorem wp_writeLoop_volume {off : UInt64} (hi : d.heap p = some i)
    (hsize : off.toNat + buf.length < 2 ^ 63) (stable : UInt32) {rounds : Nat}
    (hcnt : cnt ≤ buf.length) (h : Wrote i.fh off.toNat buf cnt s s') :
    wp (network volumeServes) (writeLoop p buf off stable rounds cnt)
      (CallPost (fun _ d' s'' ↦ d'.replies = d.replies ∧ Wrote i.fh off.toNat buf buf.length s s'')
        fun d' s'' ↦ d'.replies = d.replies ∧ Wrote i.fh off.toNat buf 0 s s'')
      (fun _ _ s'' ↦ Wrote i.fh off.toNat buf 0 s s'') d s' := by
  induction rounds generalizing d cnt s' with
  | zero => exact h.mono (Nat.zero_le cnt)
  | succ rounds ih =>
      unfold writeLoop
      by_cases hmore : cnt < buf.length
      · rw [if_pos hmore, wp_bind, wp_get, wp_bind]
        refine wp_mono ?_ (fun _ _ _ hfalse ↦ hfalse.elim)
          (wp_hsiNfs3Write_volume hi hsize hcnt h _ _ stable)
        rintro (err | count) d₁ s₁ hpost
        · obtain ⟨herr, honly, hwrote⟩ := hpost
          exact ⟨herr, honly.replies, hwrote.mono (Nat.zero_le cnt)⟩
        · obtain ⟨honly, hle, hwrote⟩ := hpost
          refine wp_mono ?_ (fun _ _ _ h ↦ h) (ih (d := d₁) (honly.heap ▸ hi) hle hwrote)
          rintro (err | n) d₂ s₂ hloop
          · exact ⟨hloop.1, hloop.2.1.trans honly.replies, hloop.2.2⟩
          · exact ⟨hloop.1.trans honly.replies, hloop.2⟩
      · rw [if_neg hmore]
        exact ⟨rfl, h.mono (Nat.le_of_not_lt hmore)⟩

/-- **`hsx_fuse_write`**: all of the buffer is in the file if the kernel is told of success. -/
theorem wp_hsxFuseWrite_volume {off ino : UInt64} (hp : d.ilookup ino = some p)
    (hi : d.heap p = some i) (hsize : off.toNat + buf.length < 2 ^ 63) (directIo : Bool)
    (rounds : Nat) :
    wp (network volumeServes) (hsxFuseWrite rounds ino buf off directIo)
      (fun _ d' s' ↦ Wrote i.fh off.toNat buf 0 s s' ∧
        (d.Reports d' → Wrote i.fh off.toNat buf buf.length s s'))
      (fun _ _ s' ↦ Wrote i.fh off.toNat buf 0 s s') d s := by
  have hnone {d' : Daemon} {s' : Volume} {e : Int} (he : e ≠ 0)
      (hrep : d'.replies = d.replies ++ [.err e]) (hwrote : Wrote i.fh off.toNat buf 0 s s') :
      Wrote i.fh off.toNat buf 0 s s' ∧
        (d.Reports d' → Wrote i.fh off.toNat buf buf.length s s') := by
    refine ⟨hwrote, fun hreports ↦ absurd ?_ he⟩
    have hone : Reply.succeeds (.err e) = true := (Daemon.reports_iff hrep).1 hreports
    exact beq_iff_eq.1 hone
  unfold hsxFuseWrite
  rw [wp_bind]
  rintro (_ | _) s₁ rfl
  · exact hnone (by decide) rfl (.refl i.fh off.toNat buf s₁)
  · change wp (network volumeServes) (hsfsIlookup ino >>= _) _ _ d s₁
    rw [wp_bind, wp_of_ret (hsfsIlookup_run hp hi)]
    dsimp only
    rw [wp_bind]
    refine wp_mono ?_ (fun _ _ _ h ↦ h)
      (wp_writeLoop_volume hi hsize _ (Nat.zero_le _) (.refl i.fh off.toNat buf s₁))
    rintro (err | n) d₁ s₂ hloop
    · exact hnone hloop.1 (congrArg (· ++ [Reply.err err]) hloop.2.1) hloop.2.2
    · exact ⟨hloop.2.mono (Nat.zero_le _), fun _ ↦ hloop.2⟩

end write

/-! ## The effect of a request -/

/-- The kernel does not write beyond the largest file. -/
def Request.InRange : Request → Prop
  | .write _ buf off _ => off.toNat + buf.length < 2 ^ 63
  | _ => True

/-- What a request is to do to the volume, if success is reported and if not. -/
def Request.Effect (req : Request) (d : Daemon) (reported : Prop) (s s' : Volume) : Prop :=
  match req.change d with
  | none => s' = s
  | some rpc => Served rpc s s' ∧ (reported → rpc.Done s s')

theorem Request.Effect.mono {req : Request} {d : Daemon} {reported reported' : Prop} {s s' : Volume}
    (h : req.Effect d reported s s') (himp : reported' → reported) :
    req.Effect d reported' s s' := by
  unfold Effect at h ⊢
  cases hchange : req.change d with
  | none =>
      rw [hchange] at h
      exact h
  | some rpc =>
      rw [hchange] at h
      exact ⟨h.1, fun hrep ↦ h.2 (himp hrep)⟩

theorem Request.part_of_change {req : Request} {d : Daemon} {rpc : Rpc}
    (h : req.change d = some rpc) (hwrite : req.isWrite = false) (n : Nat) : rpc.part n = rpc := by
  cases req with
  | mkdir | rmdir | unlink | symlink | mknod | create =>
      obtain ⟨i, -, rfl⟩ := Option.map_eq_some_iff.1 h
      rfl
  | rename | link =>
      obtain ⟨i, -, h⟩ := Option.bind_eq_some_iff.1 h
      obtain ⟨j, -, rfl⟩ := Option.map_eq_some_iff.1 h
      rfl
  | setattr =>
      obtain ⟨i, -, h⟩ := Option.bind_eq_some_iff.1 h
      split at h
      · exact nomatch h
      · obtain rfl := Option.some.inj h
        rfl
  | write => exact nomatch hwrite
  | _ => exact nomatch h

/-- Harmless requests leave the volume as it is. -/
theorem eq_of_harmless {es : List Event} (hes : ∀ req ∈ asked es, req.Harmless) {s s' : Volume}
    (hsteps : (network volumeServes).Steps s es s') : s' = s := by
  have hcarried : Carried (.fsstat NfsFh.empty) es False :=
    ⟨fun req hreq ↦ .inr (hes req hreq), False.elim⟩
  rcases (hcarried.effect hsteps).1 with hsame | ⟨n, hdone⟩
  · exact hsame
  · exact hdone

/-- What a write is to do. -/
theorem Wrote.effect {fh : NfsFh} {off : UInt64} {buf : List UInt8} {s s' : Volume}
    {reported : Prop} (h : Wrote fh off.toNat buf 0 s s')
    (hreported : reported → Wrote fh off.toNat buf buf.length s s') (count stable : UInt32) :
    Served (.write fh off count stable buf) s s' ∧
      (reported → (Rpc.write fh off count stable buf).Done s s') := by
  obtain ⟨m, -, hthere, hs'⟩ := h
  refine ⟨.inr ⟨m, hthere, hs'⟩, fun hrep ↦ ?_⟩
  obtain ⟨n, hn, hthere, hs'⟩ := hreported hrep
  rw [List.take_of_length_le hn] at hthere hs'
  exact ⟨hthere, hs'⟩

/-- **The effect of a request**, whether its handler ends well or not. -/
theorem Request.effect {req : Request} (hrange : req.InRange) {rounds : Nat} {d d' : Daemon}
    {s s' : Volume} {out : Except Fault Unit}
    (hx : Prog.Exec (network volumeServes) ((req.handle rounds).run d) s (out, d') s') :
    req.Effect d (out = .ok () ∧ d.Reports d') s s' := by
  obtain ⟨es, hrec, hsteps⟩ := hx.exists_steps []
  rw [List.nil_append] at hrec
  unfold Effect
  cases hchange : req.change d with
  | none =>
      have hends := Request.harmlessFrom hchange rounds
      cases out with
      | ok _ => exact eq_of_harmless (hends.exec_ok hrec) hsteps
      | error e => exact eq_of_harmless (hends.exec_error hrec) hsteps
  | some rpc =>
      cases hwrite : req.isWrite with
      | false =>
          have hpart := Request.part_of_change hchange hwrite
          have hends := Request.carries hchange hwrite rounds
          have hcarried : Carried rpc es (out = .ok () ∧ d.Reports d') := by
            cases out with
            | ok _ =>
                have h := hends.exec_ok hrec
                exact ⟨h.asks, fun hrep ↦ h.done hrep.2⟩
            | error e =>
                have h := hends.exec_error hrec
                exact ⟨h.asks, fun hrep ↦ nomatch hrep.1⟩
          obtain ⟨hserved, hdone⟩ := hcarried.effect hsteps
          refine ⟨hserved, fun hrep ↦ ?_⟩
          obtain ⟨n, hn⟩ := hdone hrep
          rwa [hpart n] at hn
      | true =>
          cases req with
          | write ino buf off directIo =>
              obtain ⟨i, hi, rfl⟩ := Option.map_eq_some_iff.1 hchange
              obtain ⟨p, hp, hi⟩ := Daemon.inode_eq_some_iff.1 hi
              have hwp := wp_iff_exec.1
                (wp_hsxFuseWrite_volume (s := s) hp hi hrange directIo rounds)
              cases out with
              | ok _ =>
                  obtain ⟨hwrote, hall⟩ := hwp.1 () d' s' hx
                  exact hwrote.effect (fun hrep ↦ hall hrep.2) _ _
              | error e => exact (hwp.2 e d' s' hx).effect (fun hrep ↦ nomatch hrep.1) _ _
          | _ => exact nomatch hwrite

/-! ## Sessions -/

/-- The events of some steps, the latest of which comes first. -/
def eventsOf : List Step → List Event
  | [] => []
  | st :: steps => eventsOf steps ++ st.events

/-- **The effect of a step** of a session. -/
theorem Step.effect {st : Step} (h : st.req.Handled st.before st.events st.after)
    (hrange : st.req.InRange) {s s' : Volume}
    (hsteps : (network volumeServes).Steps s st.events s') :
    st.req.Effect st.before (st.before.Reports st.after) s s' := by
  obtain ⟨rounds, hx⟩ := h
  have hexec := hx.of_steps (List.nil_append _).symm hsteps
  exact (Request.effect hrange hexec).mono fun hrep ↦ ⟨rfl, hrep⟩

/-- The volume has come about by the effects of the steps, one after the other. -/
inductive Explained : List Step → Volume → Volume → Prop
  | mounted (s : Volume) : Explained [] s s
  | step {steps : List Step} {st : Step} {s s' s'' : Volume} : Explained steps s s' →
      st.req.Effect st.before (st.before.Reports st.after) s' s'' → Explained (st :: steps) s s''

/-- **Every session on a network that loses messages is explained by the procedures that the
requests stand for, each executed at most once, and those whose success has been reported just
once.** -/
theorem session_explained {steps : List Step} {d : Daemon}
    (h : Session (fun _ st ↦ st.req.InRange) steps d) {s s' : Volume}
    (hsteps : (network volumeServes).Steps s (eventsOf steps) s') : Explained steps s s' := by
  induction h generalizing s' with
  | mounted hd =>
      cases hsteps
      exact .mounted s
  | @step steps st _ hs hok ih =>
      obtain ⟨s₁, hfirst, hlast⟩ := Server.steps_append hsteps
      exact .step (ih hfirst) (Step.effect hs hok hlast)

/-- A server that removes names. -/
def removeReply : (req : Rpc) → Volume → Option (req.Res × Volume)
  | .remove dir name, s =>
      if s.entry dir name = none then none else some (.ok (), s.setEntry dir name none)
  | _, _ => none

theorem volumeServes_of_removeReply (req : Rpc) (s : Volume) (res : req.Res) (s' : Volume)
    (h : removeReply req s = some (res, s')) : volumeServes req s res s' := by
  cases req with
  | remove dir name =>
      change (if s.entry dir name = none then none else some _) = _ at h
      split at h
      · exact nomatch h
      · next hthere =>
          cases h
          exact ⟨hthere, s, .inl rfl, rfl⟩
  | _ => exact nomatch h

/-- A volume with one empty file. -/
def sampleVolume : Volume where
  entry := fun dir name ↦ if dir = sampleRoot ∧ name = [97] then some (NfsFh.ofByte 2) else none
  data := fun fh ↦ if fh = NfsFh.ofByte 2 then some [] else none
  text := fun _ ↦ none

/-- The file is removed. -/
theorem session_explained_unlink : ∃ st s', st.req = .unlink 1 [97] ∧
    Session (fun _ st ↦ st.req.InRange) [st] st.after ∧
    (network volumeServes).Steps sampleVolume (eventsOf [st]) s' ∧ st.before.Reports st.after ∧
    Explained [st] sampleVolume s' := by
  have hplay : (sampleMount.bind fun d ↦ ((((Request.unlink 1 [97]).handle 0).run d).eval
      (networkAnswer removeReply) sampleVolume).map fun r ↦ (d, r)).any
        (fun q ↦ decide (q.2.1.1 = .ok () ∧ q.2.1.2.replies = q.1.replies ++ [.err 0])) = true := by
    decide +kernel
  obtain ⟨⟨d, ⟨out, d'⟩, s'⟩, hplay, hout⟩ := (Option.any_eq_true _ _).1 hplay
  obtain ⟨rfl, hreply⟩ := of_decide_eq_true hout
  obtain ⟨d₀, hd, hplay⟩ := Option.bind_eq_some_iff.1 hplay
  obtain ⟨r, heval, heq⟩ := Option.map_eq_some_iff.1 hplay
  cases heq
  have hx := Prog.exec_of_eval (network_of_answer volumeServes_of_removeReply) heval
  obtain ⟨es, hrec, hsteps⟩ := hx.exists_steps []
  rw [List.nil_append] at hrec
  have hsession : Session (fun _ st ↦ st.req.InRange) [⟨d, .unlink 1 [97], es, d'⟩] d' :=
    .step (s := ⟨d, .unlink 1 [97], es, d'⟩) (.mounted (mounted_of_play hd)) ⟨0, hrec⟩ trivial
  exact ⟨⟨d, .unlink 1 [97], es, d'⟩, s', rfl, hsession, hsteps, (reports_iff hreply).2 rfl,
    session_explained hsession hsteps⟩

end Hsfs
