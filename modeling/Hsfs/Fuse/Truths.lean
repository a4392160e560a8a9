import Hsfs.Fuse.Explained

/-!
# What the kernel is told about the volume

The bytes and the link texts in the replies are those on the server, at the moment of the request,
and a name that is found is there, whatever the network has lost in between and however the server
has cut the pieces (`Step.replies_true`).  With what is known of the effect of the requests before,
a read sees a write whose success has been reported, as long as nothing else has touched the file
(`session_reads_written`), and a name whose removal has been reported is not found, as long as
nothing else gets it (`session_removed_gone`).
-/

namespace Hsfs

open Interact Interact.Act Daemon

/-! ## Calls that change nothing -/

section calls

variable {d : Daemon} {s : Volume}

/-- A harmless call: its result is what the server says of the volume as it is. -/
theorem wp_call_harmless {req : Rpc} (h : req.Harmless) :
    wp (network volumeServes) (hsiNfs3ClntCall d.sb.clntp req)
      (CallPost (fun res d' s' ↦ ClientsOnly d [] d' ∧ s' = s ∧ volumeServes req s res s)
        fun d' s' ↦ ClientsOnly d [] d' ∧ s' = s)
      (fun _ _ _ ↦ False) d s := by
  have hattempts : Attempts (network volumeServes) req (· = s)
      fun res s' ↦ s' = s ∧ volumeServes req s res s := by
    refine .network ?_
    rintro _ res s' rfl hS
    obtain rfl := h _ res s' hS
    exact ⟨rfl, rfl, hS⟩
  exact wp_mono (fun _ _ _ hpost ↦ hpost) (fun _ _ _ hnot ↦ hnot (.inl rfl))
    (wp_call_server hattempts _ rfl)

/-- A handler that looks an inode up first. -/
theorem wp_ilookup_bind {σ α : Type} {S : Server Call Call.Res σ} {s : σ} {ino : UInt64}
    {f : Option Addr → Hs α} {Q : α → Daemon → σ → Prop} {E : Fault → Daemon → σ → Prop}
    (hnone : wp S (f none) Q E d s)
    (hsome : ∀ p i, d.ilookup ino = some p → d.heap p = some i → wp S (f (some p)) Q E d s)
    (hfault : E .segv d s) : wp S (hsfsIlookup ino >>= f) Q E d s := by
  rw [wp, run_bind]
  rcases d.hsfsIlookup_cases ino with ⟨-, hrun⟩ | ⟨p, i, hp, hi, hrun⟩ | ⟨p, -, -, hrun⟩
    <;> rw [hrun]
  · exact hnone
  · exact hsome p i hp hi
  · exact hfault

end calls

/-! ## Reading -/

/-- The bytes of a file, none if there is no file. -/
def Volume.bytes (s : Volume) (fh : NfsFh) : List UInt8 := (s.data fh).getD []

section read

variable {d : Daemon} {p : Addr} {i : Inode} {s : Volume}

/-- **`hsi_nfs3_read`**, over a network that loses messages. -/
theorem wp_hsiNfs3Read_volume (hi : d.heap p = some i) (off : UInt64) (size : UInt32) :
    wp (network volumeServes) (hsiNfs3Read p off size)
      (CallPost (fun resok d' s' ↦ ClientsOnly d [] d' ∧ s' = s ∧
          resok.data <+: ((s.bytes i.fh).drop off.toNat).take size.toNat ∧
          resok.count.toNat = resok.data.length ∧
          (resok.eof = true → (s.bytes i.fh).length ≤ off.toNat + resok.data.length))
        fun d' s' ↦ ClientsOnly d [] d' ∧ s' = s)
      (fun _ _ _ ↦ False) d s := by
  unfold hsiNfs3Read sbClntp
  simp only [wp_bind, wp_get, wp_pure, wp_of_ret (getfh3_run hi)]
  refine wp_mono ?_ (fun _ _ _ h ↦ h) (wp_call_harmless (Rpc.harmless_of_looks rfl))
  rintro (err | resok | status) d₁ s₁ hpost
  · exact hpost
  · obtain ⟨honly, rfl, -, bytes, hbytes, htrue⟩ := hpost
    have heq : s₁.bytes i.fh = bytes := by rw [Volume.bytes, hbytes, Option.getD_some]
    rw [← heq] at htrue
    exact ⟨honly.useClient _ _, rfl, htrue⟩
  · exact ⟨hsiNfs3StatToErrno_ne_zero status.2, hpost.1.useClient _ _, hpost.2.1⟩

/-- **The loop of `hsx_fuse_read`**: the buffer holds the first bytes of what is asked for. -/
theorem wp_readLoop_volume (hi : d.heap p = some i) {off : UInt64} {size : Nat}
    (hsize : off.toNat + size < 2 ^ 63) {rounds : Nat} {buf : List UInt8}
    (hbuf : buf = ((s.bytes i.fh).drop off.toNat).take buf.length) (hcnt : buf.length ≤ size) :
    wp (network volumeServes) (readLoop p size off rounds buf buf.length)
      (CallPost (fun r d' _ ↦ d'.replies = d.replies ∧ r.2 = r.1.length ∧
          r.1 = ((s.bytes i.fh).drop off.toNat).take size) fun d' _ ↦ d'.replies = d.replies)
      (fun _ _ _ ↦ True) d s := by
  induction rounds generalizing d buf with
  | zero => trivial
  | succ rounds ih =>
      unfold readLoop
      by_cases hmore : buf.length < size
      · rw [if_pos hmore, wp_bind, wp_get, wp_bind]
        refine wp_mono ?_ (fun _ _ _ _ ↦ trivial) (wp_hsiNfs3Read_volume hi _ _)
        rintro (err | resok) d₁ s₁ hpost
        · obtain ⟨herr, honly, -⟩ := hpost
          exact ⟨herr, honly.replies⟩
        obtain ⟨honly, rfl, hdata, hcount, heof⟩ := hpost
        rw [toNat_offset_add (by omega)] at hdata heof
        rw [toNat_piece, ← List.drop_drop] at hdata
        have hlength : resok.data.length ≤ size - buf.length := by
          have := hdata.length_le
          rw [List.length_take] at this
          omega
        have hnext : buf ++ resok.data =
            ((s₁.bytes i.fh).drop off.toNat).take (buf ++ resok.data).length := by
          rw [List.length_append]
          calc buf ++ resok.data
              = ((s₁.bytes i.fh).drop off.toNat).take buf.length ++ resok.data := by rw [← hbuf]
            _ = _ := take_append_of_prefix hdata
        dsimp only
        rw [storeAt_end, hcount, ← List.length_append]
        cases hend : resok.eof with
        | true =>
            -- the end of the file
            have hall := heof hend
            refine ⟨honly.replies, rfl, hnext.trans ?_⟩
            rw [List.length_append, List.take_of_length_le, List.take_of_length_le]
            all_goals
              rw [List.length_drop]
              omega
        | false =>
            have hle : (buf ++ resok.data).length ≤ size := by
              rw [List.length_append]
              omega
            refine wp_mono ?_ (fun _ _ _ h ↦ h) (ih (d := d₁) (honly.heap ▸ hi) hnext hle)
            rintro (err | r) d₂ s₂ hloop
            · exact ⟨hloop.1, hloop.2.trans honly.replies⟩
            · exact ⟨hloop.1.trans honly.replies, hloop.2⟩
      · rw [if_neg hmore]
        rw [Nat.le_antisymm hcnt (Nat.le_of_not_lt hmore)] at hbuf
        exact ⟨rfl, rfl, hbuf⟩

/-- **`hsx_fuse_read`** replies with the bytes of the file, or with an error. -/
theorem wp_hsxFuseRead_volume (ino : UInt64) {size off : UInt64}
    (hsize : off.toNat + size.toNat < 2 ^ 63) (rounds : Nat) :
    wp (network volumeServes) (hsxFuseRead rounds ino size off)
      (fun _ d' _ ↦ ∃ rep, d'.replies = d.replies ++ [rep] ∧ ∀ bytes, rep = .buf bytes →
        ∃ i, d.inode ino = some i ∧ bytes = ((s.bytes i.fh).drop off.toNat).take size.toNat)
      (fun _ _ _ ↦ True) d s := by
  unfold hsxFuseRead
  rw [wp_bind]
  rintro (_ | _) s₁ rfl
  · exact ⟨_, rfl, fun _ h ↦ nomatch h⟩
  refine wp_ilookup_bind ⟨_, rfl, fun _ h ↦ nomatch h⟩ (fun p i hp hi ↦ ?_) trivial
  dsimp only
  rw [wp_bind]
  have hempty : ([] : List UInt8) =
      ((s₁.bytes i.fh).drop off.toNat).take ([] : List UInt8).length := rfl
  refine wp_mono ?_ (fun _ _ _ h ↦ h) (wp_readLoop_volume hi hsize hempty (Nat.zero_le _))
  rintro (err | ⟨buf, cnt⟩) d₁ s₂ hloop
  · exact ⟨_, congrArg (· ++ [_]) hloop.2, fun _ h ↦ nomatch h⟩
  · obtain ⟨hreplies, hcnt, hbuf⟩ := hloop
    obtain rfl : cnt = buf.length := hcnt
    refine ⟨_, congrArg (· ++ [_]) hreplies, fun bytes h ↦
      ⟨i, Daemon.inode_eq_some_iff.2 ⟨p, hp, hi⟩, ?_⟩⟩
    rw [← Reply.buf.inj h, storeAt_end, List.append_nil, List.take_length]
    exact hbuf

end read

/-! ## Link texts -/

section readlink

variable {d : Daemon} {s : Volume}

/-- **`hsi_nfs3_readlink`**, over a network that loses messages.  For want of memory there is no
text. -/
theorem wp_hsiNfs3Readlink_volume {p : Addr} {i : Inode} (hi : d.heap p = some i) :
    wp (network volumeServes) (hsiNfs3Readlink p)
      (fun r d' _ ↦ d'.replies = d.replies ∧ ∀ text, r.2 = some text →
        ∃ full, s.text i.fh = some full ∧ text = cString full) (fun _ _ _ ↦ True) d s := by
  have hnone : ∀ text, (none : Option Name) = some text →
      ∃ full, s.text i.fh = some full ∧ text = cString full :=
    fun text h ↦ absurd h.symm (Option.some_ne_none text)
  unfold hsiNfs3Readlink sbClntp
  simp only [wp_bind, wp_get, wp_pure, wp_of_ret (getfh3_run hi)]
  refine wp_mono ?_ (fun _ _ _ _ ↦ trivial) (wp_call_harmless (Rpc.harmless_of_looks rfl))
  rintro (err | full | status) d₁ s₁ hpost
  · exact ⟨hpost.2.1.replies, hnone⟩
  · obtain ⟨honly, rfl, -, hfull⟩ := hpost
    rintro (_ | _) s₂ rfl
    · exact ⟨honly.replies, hnone⟩
    · exact ⟨honly.replies, fun text h ↦ ⟨full, hfull, (Option.some.inj h).symm⟩⟩
  · exact ⟨hpost.1.replies, hnone⟩

/-- **`hsx_fuse_readlink`** replies with the text of the link, or without one, or not at all. -/
theorem wp_hsxFuseReadlink_volume (ino : UInt64) :
    wp (network volumeServes) (hsxFuseReadlink ino)
      (fun _ d' _ ↦ ∃ reps, d'.replies = d.replies ++ reps ∧ ∀ text, .readlink (some text) ∈ reps →
        ∃ i full, d.inode ino = some i ∧ s.text i.fh = some full ∧ text = cString full)
      (fun _ _ _ ↦ True) d s := by
  unfold hsxFuseReadlink
  have hnone : d.replies = d.replies ++ [] := (List.append_nil _).symm
  refine wp_ilookup_bind ⟨[], hnone, fun _ h ↦ nomatch h⟩ (fun p i hp hi ↦ ?_) trivial
  dsimp only
  rw [wp_bind]
  refine wp_mono ?_ (fun _ _ _ h ↦ h) (wp_hsiNfs3Readlink_volume hi)
  rintro ⟨st, link⟩ d₁ s₁ ⟨hreplies, htext⟩
  dsimp only
  rw [wp_ite]
  split
  · exact ⟨_, congrArg (· ++ [_]) hreplies, fun _ h ↦ nomatch List.mem_singleton.1 h⟩
  · refine ⟨_, congrArg (· ++ [_]) hreplies, fun text h ↦ ?_⟩
    obtain ⟨full, hfull, heq⟩ := htext text (Reply.readlink.inj (List.mem_singleton.1 h)).symm
    exact ⟨i, full, Daemon.inode_eq_some_iff.2 ⟨p, hp, hi⟩, hfull, heq⟩

end readlink

/-! ## Names -/

section lookup

variable {d : Daemon} {s : Volume}

/-- **`hsi_nfs3_lookup`** succeeds only if the server has the name. -/
theorem wp_hsiNfs3Lookup_volume {p : Addr} {i : Inode} (hi : d.heap p = some i) (name : Name) :
    wp (network volumeServes) (hsiNfs3Lookup p name)
      (fun r _ _ ↦ r.1 = 0 → s.entry i.fh name ≠ none) (fun _ _ _ ↦ True) d s := by
  unfold hsiNfs3Lookup callSb sbClntp
  simp only [wp_bind, wp_get, wp_pure, wp_of_ret (getfh3_run hi)]
  refine wp_mono ?_ (fun _ _ _ _ ↦ trivial) (wp_call_harmless (Rpc.harmless_of_looks rfl))
  rintro (err | res | status) d₁ s₁ hpost
  · exact fun hzero ↦ absurd hzero hpost.1
  · obtain ⟨-, rfl, -, hentry⟩ := hpost
    have hthere : s₁.entry i.fh name ≠ none := hentry ▸ Option.some_ne_none _
    exact wp_iff_exec.2 ⟨fun _ _ _ _ _ ↦ hthere, fun _ _ _ _ ↦ trivial⟩
  · exact fun hzero ↦ absurd hzero (hsiNfs3StatToErrno_ne_zero status.2)

/-- **`hsx_fuse_lookup`** replies with an entry only if the server has the name. -/
theorem wp_hsxFuseLookup_volume (parent : UInt64) (name : Name) :
    wp (network volumeServes) (hsxFuseLookup parent name)
      (fun _ d' _ ↦ ∀ e, Reply.entry e ∈ d'.replies.drop d.replies.length →
        ∃ i, d.inode parent = some i ∧ s.entry i.fh name ≠ none) (fun _ _ _ ↦ True) d s := by
  have herr {d' : Daemon} {err : Int} (h : d'.replies = d.replies) (e : EntryParam) :
      Reply.entry e ∉ (d'.replies ++ [Reply.err err]).drop d.replies.length := by
    rw [h, List.drop_left]
    exact fun hmem ↦ Reply.noConfusion (List.mem_singleton.1 hmem)
  unfold hsxFuseLookup
  refine wp_ilookup_bind (fun e h ↦ absurd h (herr rfl e)) (fun p i hp hi ↦ ?_) trivial
  dsimp only
  rw [wp_bind]
  refine wp_mono ?_ (fun _ _ _ _ ↦ trivial) (wp_and (wp_hsiNfs3Lookup_volume hi name)
    ((HandleFrame.silent.lookup p name).wp (network volumeServes) d s))
  rintro ⟨err, child⟩ d₁ s₁ ⟨hthere, es, hsilent⟩
  dsimp only
  rw [wp_ite]
  split
  · exact fun e h ↦ absurd h (herr hsilent.replies e)
  · next hzero =>
      -- the server has the name, whatever is replied
      have htrue := hthere (not_not.1 hzero)
      exact wp_iff_exec.2 ⟨fun _ _ _ _ _ _ ↦ ⟨i, Daemon.inode_eq_some_iff.2 ⟨p, hp, hi⟩, htrue⟩,
        fun _ _ _ _ ↦ trivial⟩

end lookup

/-! ## What the kernel is told -/

/-- What a reply says of the volume. -/
def Request.Truth (d : Daemon) (s : Volume) : Request → Reply → Prop
  | .read ino size off, .buf bytes => off.toNat + size.toNat < 2 ^ 63 → ∃ i, d.inode ino = some i ∧
      bytes = ((s.bytes i.fh).drop off.toNat).take size.toNat
  | .readlink ino, .readlink (some text) => ∃ i full, d.inode ino = some i ∧
      s.text i.fh = some full ∧ text = cString full
  | .lookup parent name, .entry _ => ∃ i, d.inode parent = some i ∧ s.entry i.fh name ≠ none
  | _, _ => True

/-- **What a handler replies is true** of the volume that it has found. -/
theorem Request.truth_of_exec {req : Request} {rounds : Nat} {d d' : Daemon} {s s' : Volume}
    (hx : Prog.Exec (network volumeServes) ((req.handle rounds).run d) s (.ok (), d') s') :
    ∀ rep ∈ d'.replies.drop d.replies.length, req.Truth d s rep := by
  intro rep hrep
  cases req with
  | read ino size off =>
      cases rep with
      | buf bytes =>
          intro hsize
          have hsize' : off.toNat + size.toUInt64.toNat < 2 ^ 63 := hsize
          obtain ⟨rep, hreplies, htrue⟩ := (wp_iff_exec.1
            (wp_hsxFuseRead_volume ino hsize' rounds)).1 () d' s' hx
          rw [hreplies, List.drop_left, List.mem_singleton] at hrep
          exact htrue bytes hrep.symm
      | _ => trivial
  | readlink ino =>
      obtain ⟨reps, hreplies, htrue⟩ :=
        (wp_iff_exec.1 (wp_hsxFuseReadlink_volume ino)).1 () d' s' hx
      rw [hreplies, List.drop_left] at hrep
      cases rep with
      | readlink text =>
          cases text with
          | some text => exact htrue text hrep
          | none => trivial
      | _ => trivial
  | lookup parent name =>
      cases rep with
      | entry e =>
          exact (wp_iff_exec.1 (wp_hsxFuseLookup_volume parent name)).1 () d' s' hx e hrep
      | _ => trivial
  | _ => trivial

/-! ## Playing on a volume -/

/-- A server that stores and returns one byte at a time. -/
def bytewiseReply : (req : Rpc) → Volume → Option (req.Res × Volume)
  | .lookup dir name, s => some ((s.entry dir name).elim (.fail ⟨2, by decide⟩)
      fun fh ↦ .ok ⟨fh, some (sampleFile 2)⟩, s)
  | .remove dir name, s =>
      if s.entry dir name = none then none else some (.ok (), s.setEntry dir name none)
  | .readlink fh, s => (s.text fh).map fun text ↦ (.ok text, s)
  | .write fh off _ _ (byte :: _), s =>
      if s.data fh = none then none else some (.ok 1, s.modify fh (written off.toNat [byte]))
  | .read fh off count, s => (s.data fh).map fun bytes ↦
      let part := ((bytes.drop off.toNat).take count.toNat).take 1
      (.ok ⟨part.length.toUInt32, decide (bytes.length ≤ off.toNat + part.length), part⟩, s)
  | _, _ => none

theorem volumeServes_of_bytewiseReply (req : Rpc) (s : Volume) (res : req.Res) (s' : Volume)
    (h : bytewiseReply req s = some (res, s')) : volumeServes req s res s' := by
  cases req with
  | lookup dir name =>
      cases h
      cases hentry : s.entry dir name with
      | none => rfl
      | some fh => exact ⟨rfl, hentry⟩
  | remove dir name =>
      change (if s.entry dir name = none then none else some _) = _ at h
      split at h
      · exact nomatch h
      · next hthere =>
          cases h
          exact ⟨hthere, s, .inl rfl, rfl⟩
  | readlink fh =>
      obtain ⟨text, htext, heq⟩ := Option.map_eq_some_iff.1 h
      cases heq
      exact ⟨rfl, htext⟩
  | write fh off count stable data =>
      cases data with
      | nil => exact nomatch h
      | cons byte data =>
          change (if s.data fh = none then none else some _) = _ at h
          split at h
          · exact nomatch h
          · next hthere =>
              cases h
              exact ⟨Nat.le_add_left 1 data.length, fun _ ↦ hthere, rfl⟩
  | read fh off count =>
      obtain ⟨bytes, hbytes, heq⟩ := Option.map_eq_some_iff.1 h
      cases heq
      refine ⟨rfl, bytes, hbytes, List.take_prefix .., ?_, of_decide_eq_true⟩
      refine UInt32.toNat_ofNat_of_lt' ?_
      exact (List.length_take_le 1 _).trans_lt (by decide)
  | _ => exact nomatch h

/-- Handle a request on a volume. -/
def Request.playOn (rounds : Nat) (req : Request) (r : Daemon × Volume) :
    Option (Daemon × Volume) :=
  match ((req.handle rounds).run r.1).eval (networkAnswer bytewiseReply) r.2 with
  | some ((.ok (), d), s) => some (d, s)
  | _ => none

theorem Request.handled_of_playOn {rounds : Nat} {req : Request} {d d' : Daemon} {s s' : Volume}
    (h : req.playOn rounds (d, s) = some (d', s')) :
    ∃ es, req.Handled d es d' ∧ (network volumeServes).Steps s es s' := by
  unfold Request.playOn at h
  split at h
  · next heval =>
      cases h
      have hx := Prog.exec_of_eval (network_of_answer volumeServes_of_bytewiseReply) heval
      obtain ⟨es, hrec, hsteps⟩ := hx.exists_steps []
      exact ⟨es, ⟨rounds, hrec⟩, hsteps⟩
  · exact nomatch h

/-- A session goes on with a request that is played. -/
theorem Session.of_playOn {steps : List Step} {d d' : Daemon} {s v v' : Volume}
    (h : Session (fun _ st ↦ st.req.InRange) steps d)
    (hsteps : (network volumeServes).Steps s (eventsOf steps) v) {rounds : Nat} {req : Request}
    (hplay : req.playOn rounds (d, v) = some (d', v')) (hrange : req.InRange) :
    ∃ es, Session (fun _ st ↦ st.req.InRange) (⟨d, req, es, d'⟩ :: steps) d' ∧
      (network volumeServes).Steps s (eventsOf (⟨d, req, es, d'⟩ :: steps)) v' := by
  obtain ⟨es, hhandled, hlast⟩ := Request.handled_of_playOn hplay
  exact ⟨es, .step (s := ⟨d, req, es, d'⟩) h hhandled hrange, hsteps.append hlast⟩

/-- A volume with a file and a link to it. -/
def linkedVolume : Volume where
  entry := fun dir name ↦ if dir = sampleRoot ∧ name = [97] then some (NfsFh.ofByte 2) else
    if dir = sampleRoot ∧ name = [98] then some (NfsFh.ofByte 3) else none
  data := fun fh ↦ if fh = NfsFh.ofByte 2 then some [1, 2, 3] else none
  text := fun fh ↦ if fh = NfsFh.ofByte 3 then some [97] else none

/-! ## Replies -/

/-- **What the kernel is told is true** at the moment of the request. -/
theorem Step.replies_true {st : Step} (h : st.req.Handled st.before st.events st.after)
    {s s' : Volume} (hsteps : (network volumeServes).Steps s st.events s') :
    ∀ rep ∈ st.replies, st.req.Truth st.before s rep := by
  obtain ⟨rounds, hx⟩ := h
  exact Request.truth_of_exec (hx.of_steps (List.nil_append _).symm hsteps)

/-- The text of a link is asked for. -/
theorem Step.replies_true_readlink : ∃ (st : Step) (s' : Volume), st.req = .readlink 2 ∧
    st.req.Handled st.before st.events st.after ∧
    (network volumeServes).Steps linkedVolume st.events s' ∧
    st.replies = [.readlink (some [97])] ∧
    ∀ rep ∈ st.replies, st.req.Truth st.before linkedVolume rep := by
  have hplay : (sampleMount.bind fun d ↦ ((Request.lookup 1 [98]).playOn 0 (d, linkedVolume)).bind
      fun r ↦ ((Request.readlink 2).playOn 0 (r.1, linkedVolume)).map fun r' ↦ (r.1, r')).any
        (fun q ↦ decide (q.2.1.replies.drop q.1.replies.length = [.readlink (some [97])])) =
          true := by
    decide +kernel
  obtain ⟨⟨d, d', s'⟩, hplay, hreplies⟩ := (Option.any_eq_true _ _).1 hplay
  obtain ⟨d₀, -, hplay⟩ := Option.bind_eq_some_iff.1 hplay
  obtain ⟨r, -, hplay⟩ := Option.bind_eq_some_iff.1 hplay
  obtain ⟨r', hplay, heq⟩ := Option.map_eq_some_iff.1 hplay
  cases heq
  obtain ⟨es, hhandled, hsteps⟩ := Request.handled_of_playOn hplay
  let st : Step := ⟨r.1, .readlink 2, es, d'⟩
  have hhandled : st.req.Handled st.before st.events st.after := hhandled
  exact ⟨st, s', rfl, hhandled, hsteps, of_decide_eq_true hreplies,
    Step.replies_true hhandled hsteps⟩

/-! ## Reading what has been written -/

/-- The procedure leaves the bytes of the file as they are. -/
def Rpc.keepsBytes (fh : NfsFh) : Rpc → Bool
  | .setattr fh' attrs => fh' ≠ fh || attrs.size.isNone
  | .write fh' _ _ _ _ => fh' ≠ fh
  | .create _ _ how => how.size.isNone
  | .remove _ _ | .rmdir _ _ | .rename _ _ _ _ => false
  | _ => true

section keepsBytes

variable {fh : NfsFh} {s s' : Volume}

/-- A new object is not the file. -/
theorem Volume.Adds.data_old {dir : NfsFh} {name : Name} {data : Option (List UInt8)}
    {text : Option Name} (h : s.Adds dir name data text s') (hthere : s.data fh ≠ none) :
    s'.data fh = s.data fh := by
  obtain ⟨-, new, hnew, -, rfl⟩ := h
  have hne : fh ≠ new := by
    rintro rfl
    exact hthere hnew.data
  exact Function.update_of_ne hne ..

theorem Volume.modify_data_of_ne {fh' : NfsFh} (h : fh ≠ fh') (f : List UInt8 → List UInt8) :
    (s.modify fh' f).data fh = s.data fh :=
  Function.update_of_ne h ..

theorem Volume.resize_data_of_ne {fh' : NfsFh} (h : fh ≠ fh') (size : Option UInt64) :
    (s.resize fh' size).data fh = s.data fh := by
  cases size with
  | none => rfl
  | some n => exact Volume.modify_data_of_ne h _

theorem Rpc.Done.data_eq {rpc : Rpc} (h : rpc.Done s s') (hkeeps : rpc.keepsBytes fh = true)
    (hthere : s.data fh ≠ none) : s'.data fh = s.data fh := by
  cases rpc with
  | setattr fh' attrs =>
      obtain rfl : s' = s.resize fh' attrs.size := h
      rcases Bool.or_eq_true_iff.1 hkeeps with hne | hsize
      · exact Volume.resize_data_of_ne (Ne.symm (of_decide_eq_true hne)) _
      · rw [Option.isNone_iff_eq_none.1 hsize]
        rfl
  | write fh' off count stable data =>
      rw [h.2]
      exact Volume.modify_data_of_ne (Ne.symm (of_decide_eq_true hkeeps)) _
  | create dir name how =>
      rcases h with hadds | ⟨-, fh', -, rfl⟩
      · exact hadds.data_old hthere
      · rw [Option.isNone_iff_eq_none.1 hkeeps]
        rfl
  | mkdir | symlink | mknod => exact Volume.Adds.data_old h hthere
  | remove | rmdir | rename => exact nomatch hkeeps
  | link =>
      rw [h.2]
      rfl
  | _ => exact congrArg (Volume.data · fh) h

theorem Rpc.keepsBytes_part (rpc : Rpc) (n : Nat) :
    (rpc.part n).keepsBytes fh = rpc.keepsBytes fh := by
  cases rpc <;> rfl

theorem Served.data_eq {rpc : Rpc} (h : Served rpc s s') (hkeeps : rpc.keepsBytes fh = true)
    (hthere : s.data fh ≠ none) : s'.data fh = s.data fh := by
  rcases h with rfl | ⟨n, hn⟩
  · rfl
  · exact hn.data_eq ((rpc.keepsBytes_part n).trans hkeeps) hthere

end keepsBytes

/-- A part of what has been written. -/
theorem take_drop_writeAt {off off' size : Nat} {buf : List UInt8} (hle : off ≤ off')
    (hend : off' + size ≤ off + buf.length) (bytes : List UInt8) :
    ((writeAt off buf bytes).drop off').take size = (buf.drop (off' - off)).take size := by
  have hfirst : (resizeTo off bytes).length ≤ off' := (length_resizeTo off bytes).le.trans hle
  have hlast : size ≤ (buf.drop (off' - off)).length := by
    rw [List.length_drop]
    omega
  rw [writeAt, List.append_assoc, List.drop_append, List.drop_of_length_le hfirst, List.nil_append,
    length_resizeTo, List.drop_append_of_le_length (by omega), List.take_append_of_le_length hlast]

theorem take_drop_written {off off' size : Nat} {buf : List UInt8} (hle : off ≤ off')
    (hend : off' + size ≤ off + buf.length) (bytes : List UInt8) :
    ((written off buf bytes).drop off').take size = (buf.drop (off' - off)).take size := by
  unfold written
  split
  · next hnil =>
      have hsize : size = 0 := by
        rw [hnil, List.length_nil] at hend
        omega
      rw [hsize, List.take_zero, List.take_zero]
  · exact take_drop_writeAt hle hend bytes

theorem eventsOf_append (steps steps' : List Step) :
    eventsOf (steps ++ steps') = eventsOf steps' ++ eventsOf steps := by
  induction steps with
  | nil => exact (List.append_nil _).symm
  | cons st steps ih => rw [List.cons_append, eventsOf, eventsOf, ih, List.append_assoc]

/-- What holds of each step of a session. -/
theorem Session.forall_mem {P : Step → Prop} {steps : List Step} {d : Daemon}
    (h : Session (fun _ st ↦ P st) steps d) :
    ∀ st ∈ steps, st.req.Handled st.before st.events st.after ∧ P st := by
  induction h with
  | mounted hd => exact fun _ hst ↦ nomatch hst
  | step hprev hs hok ih => exact List.forall_mem_cons.2 ⟨⟨hs, hok⟩, ih⟩

/-- The volume before a step of a session, after it, and before the last step. -/
theorem Session.exists_volumes {P : Step → Prop} {earlier later : List Step} {st last : Step}
    {d : Daemon} (h : Session (fun _ st ↦ P st) (last :: (later ++ st :: earlier)) d)
    {s s' : Volume}
    (hsteps : (network volumeServes).Steps s (eventsOf (last :: (later ++ st :: earlier))) s') :
    ∃ s₀ s₁ s₂, (network volumeServes).Steps s₀ st.events s₁ ∧
      (network volumeServes).Steps s₁ (eventsOf later) s₂ ∧
      ∃ rounds, Prog.Exec (network volumeServes) ((last.req.handle rounds).run last.before) s₂
        (.ok (), last.after) s' := by
  obtain ⟨⟨rounds, hx⟩, -⟩ := h.forall_mem last List.mem_cons_self
  rw [eventsOf, eventsOf_append] at hsteps
  obtain ⟨s₂, hsteps, hlast⟩ := Server.steps_append hsteps
  obtain ⟨s₁, hsteps, hbetween⟩ := Server.steps_append hsteps
  obtain ⟨s₀, -, hst⟩ := Server.steps_append hsteps
  exact ⟨s₀, s₁, s₂, hst, hbetween, rounds, hx.of_steps (List.nil_append _).symm hlast⟩

/-- The steps that leave the bytes of a file as they are. -/
def Step.KeepsBytes (st : Step) (fh : NfsFh) : Prop :=
  ∀ rpc, st.req.change st.before = some rpc → rpc.keepsBytes fh = true

/-- **What the procedures of some steps keep, the steps keep**, however often each procedure has
been executed. -/
theorem keeps_of_steps {P : Volume → Prop} {steps : List Step}
    (hsteps : ∀ st ∈ steps, st.req.Handled st.before st.events st.after ∧ st.req.InRange)
    (hkeeps : ∀ st ∈ steps, ∀ rpc, st.req.change st.before = some rpc →
      ∀ s s', Served rpc s s' → P s → P s') {s s' : Volume} (hs : P s)
    (hrun : (network volumeServes).Steps s (eventsOf steps) s') : P s' := by
  induction steps generalizing s' with
  | nil =>
      cases hrun
      exact hs
  | cons st steps ih =>
      obtain ⟨⟨hhandled, hrange⟩, hsteps⟩ := List.forall_mem_cons.1 hsteps
      obtain ⟨hst, hkeeps⟩ := List.forall_mem_cons.1 hkeeps
      obtain ⟨s₁, hfirst, hlast⟩ := Server.steps_append hrun
      have hP := ih hsteps hkeeps hfirst
      have heffect := Step.effect hhandled hrange hlast
      unfold Request.Effect at heffect
      cases hchange : st.req.change st.before with
      | none =>
          rw [hchange] at heffect
          exact heffect ▸ hP
      | some rpc =>
          rw [hchange] at heffect
          exact hst rpc hchange s₁ s' heffect.1 hP

/-- The bytes of a file after a write whose success has been reported. -/
theorem Step.data_of_write {st : Step} (h : st.req.Handled st.before st.events st.after)
    (hrange : st.req.InRange) (hreports : st.before.Reports st.after) {ino off : UInt64}
    {buf : List UInt8} {directIo : Bool} (hreq : st.req = .write ino buf off directIo) {i : Inode}
    (hi : st.before.inode ino = some i) {s s' : Volume}
    (hsteps : (network volumeServes).Steps s st.events s') :
    (buf ≠ [] → s.data i.fh ≠ none) ∧ s'.data i.fh = (s.data i.fh).map (written off.toNat buf) := by
  have heffect := Step.effect h hrange hsteps
  have hchange : st.req.change st.before = some (.write i.fh off buf.length.toUInt32
      (if directIo then hsfsFileSync else hsfsUnstable) buf) := by
    rw [hreq, Request.change, hi]
    rfl
  rw [Request.Effect, hchange] at heffect
  obtain ⟨hthere, rfl⟩ := heffect.2 hreports
  exact ⟨hthere, s.modify_data i.fh _⟩

/-- **A read of what has been written returns what has been written**: if the success of the write
has been reported, and the steps between the two leave the bytes of the file as they are, then
whatever the network has lost, the bytes that the kernel gets are those it has sent. -/
theorem session_reads_written {earlier later : List Step} {wr rd : Step} {d : Daemon}
    (h : Session (fun _ st ↦ st.req.InRange) (rd :: (later ++ wr :: earlier)) d) {s s' : Volume}
    (hsteps : (network volumeServes).Steps s (eventsOf (rd :: (later ++ wr :: earlier))) s')
    {ino off : UInt64} {buf : List UInt8} {directIo : Bool} {i : Inode}
    (hwr : wr.req = .write ino buf off directIo) (hi : wr.before.inode ino = some i)
    (hreports : wr.before.Reports wr.after) (hlater : ∀ st ∈ later, st.KeepsBytes i.fh)
    {ino' off' : UInt64} {size : UInt32} {j : Inode} (hrd : rd.req = .read ino' size off')
    (hj : rd.before.inode ino' = some j) (hsame : j.fh = i.fh) (hle : off.toNat ≤ off'.toNat)
    (hend : off'.toNat + size.toNat ≤ off.toNat + buf.length) {bytes : List UInt8}
    (hbytes : Reply.buf bytes ∈ rd.replies) :
    bytes = (buf.drop (off'.toNat - off.toNat)).take size.toNat := by
  obtain ⟨hmemLater, hmem⟩ := List.forall_mem_append.1 (List.forall_mem_cons.1 h.forall_mem).2
  obtain ⟨hhandled, hrange⟩ := hmem wr List.mem_cons_self
  obtain ⟨s₀, s₁, s₂, hwrite, hbetween, rounds, hread⟩ := h.exists_volumes hsteps
  obtain ⟨hthere, hdata⟩ := Step.data_of_write hhandled hrange hreports hwr hi hwrite
  have hsmall : off'.toNat + size.toNat < 2 ^ 63 := by
    rw [hwr] at hrange
    exact hend.trans_lt hrange
  have htrue := Request.truth_of_exec hread _ hbytes
  rw [hrd] at htrue
  obtain ⟨j', hj', hbytes⟩ := htrue hsmall
  obtain rfl := Option.some.inj (hj.symm.trans hj')
  rw [hsame] at hbytes
  by_cases hnil : buf = []
  · have hsize : size.toNat = 0 := by
      rw [hnil, List.length_nil] at hend
      omega
    rw [hbytes, hsize, List.take_zero, List.take_zero]
  · obtain ⟨old, hold⟩ := Option.ne_none_iff_exists'.1 (hthere hnil)
    rw [hold, Option.map_some] at hdata
    have hkept : s₂.data i.fh = some (written off.toNat buf old) := by
      refine keeps_of_steps (P := fun v ↦ v.data i.fh = some _) hmemLater ?_ hdata hbetween
      intro st hst rpc hchange v v' hserved hv
      have hthere : v.data i.fh ≠ none := hv ▸ Option.some_ne_none _
      exact (hserved.data_eq (hlater st hst rpc hchange) hthere).trans hv
    rw [hbytes, Volume.bytes, hkept, Option.getD_some]
    exact take_drop_written hle hend old

/-- A file is looked up and written, and what has been written is read. -/
theorem session_reads_written_bytewise : ∃ (look wr op rd : Step) (s' : Volume)
      (bytes : List UInt8),
    Session (fun _ st ↦ st.req.InRange) [rd, op, wr, look] rd.after ∧
    (network volumeServes).Steps linkedVolume (eventsOf [rd, op, wr, look]) s' ∧
    wr.req = .write 2 [7, 8, 9] 1 false ∧ wr.before.Reports wr.after ∧
    rd.req = .read 2 2 2 ∧ Reply.buf bytes ∈ rd.replies ∧ bytes = [8, 9] := by
  have hplay : (sampleMount.bind fun d ↦ ((Request.lookup 1 [97]).playOn 0 (d, linkedVolume)).bind
      fun r₁ ↦ ((Request.write 2 [7, 8, 9] 1 false).playOn 4 r₁).bind
      fun r₂ ↦ (Request.open.playOn 0 r₂).bind
      fun r₃ ↦ ((Request.read 2 2 2).playOn 4 r₃).map
      fun r₄ ↦ (d, r₁, r₂, r₃, r₄)).any
        (fun q ↦ decide (q.2.2.1.1.replies = q.2.1.1.replies ++ [.write 3] ∧
          (q.2.1.1.inode 2).map Inode.fh = some (NfsFh.ofByte 2) ∧
          (q.2.2.2.1.1.inode 2).map Inode.fh = some (NfsFh.ofByte 2) ∧
          q.2.2.2.2.1.replies = q.2.2.2.1.1.replies ++ [.buf [8, 9]])) = true := by
    decide +kernel
  obtain ⟨⟨d, ⟨d₁, s₁⟩, ⟨d₂, s₂⟩, ⟨d₃, s₃⟩, ⟨d₄, s₄⟩⟩, hplay, hchecks⟩ :=
    (Option.any_eq_true _ _).1 hplay
  obtain ⟨hwrite, hi, hj, hread⟩ := of_decide_eq_true hchecks
  obtain ⟨d, hd, hplay⟩ := Option.bind_eq_some_iff.1 hplay
  obtain ⟨r₁, hplay₁, hplay⟩ := Option.bind_eq_some_iff.1 hplay
  obtain ⟨r₂, hplay₂, hplay⟩ := Option.bind_eq_some_iff.1 hplay
  obtain ⟨r₃, hplay₃, hplay⟩ := Option.bind_eq_some_iff.1 hplay
  obtain ⟨r₄, hplay₄, heq⟩ := Option.map_eq_some_iff.1 hplay
  cases heq
  obtain ⟨es₁, hlook, hsteps⟩ :=
    Session.of_playOn (.mounted (mounted_of_play hd)) (.nil linkedVolume) hplay₁ trivial
  obtain ⟨es₂, hwr, hsteps⟩ := hlook.of_playOn hsteps hplay₂ (show 1 + 3 < 2 ^ 63 by decide)
  obtain ⟨es₃, hop, hsteps⟩ := hwr.of_playOn hsteps hplay₃ trivial
  obtain ⟨es₄, hrd, hsteps⟩ := hop.of_playOn hsteps hplay₄ trivial
  obtain ⟨i, hi, hfh⟩ := Option.map_eq_some_iff.1 hi
  obtain ⟨j, hj, hfh'⟩ := Option.map_eq_some_iff.1 hj
  let look : Step := ⟨d, .lookup 1 [97], es₁, d₁⟩
  let wr : Step := ⟨d₁, .write 2 [7, 8, 9] 1 false, es₂, d₂⟩
  let op : Step := ⟨d₂, .open, es₃, d₃⟩
  let rd : Step := ⟨d₃, .read 2 2 2, es₄, d₄⟩
  have hrd : Session (fun _ st ↦ st.req.InRange) (rd :: ([op] ++ wr :: [look])) d₄ := hrd
  have hreports : d₁.Reports d₂ := (reports_iff hwrite).2 rfl
  have hkeeps : ∀ st ∈ [op], st.KeepsBytes i.fh :=
    List.forall_mem_singleton.2 fun _ hchange ↦ nomatch hchange
  have hbuf : Reply.buf [8, 9] ∈ rd.replies := by
    change Reply.buf [8, 9] ∈ d₄.replies.drop d₃.replies.length
    rw [hread, List.drop_left]
    exact List.mem_singleton.2 rfl
  refine ⟨look, wr, op, rd, s₄, [8, 9], hrd, hsteps, rfl, hreports, rfl, hbuf, ?_⟩
  exact session_reads_written hrd hsteps rfl hi hreports hkeeps rfl hj
    (hfh'.trans hfh.symm) (by decide) (by decide) hbuf

/-! ## Looking for what has been removed -/

/-- The procedure does not give the name to anything. -/
def Rpc.keepsAbsent (dir : NfsFh) (name : Name) : Rpc → Bool
  | .create dir' name' _ | .mkdir dir' name' _ | .symlink dir' name' _ _ | .mknod dir' name' _
  | .link _ dir' name' | .rename _ _ dir' name' => ¬(dir = dir' ∧ name = name')
  | _ => true

section keepsAbsent

variable {dir : NfsFh} {name : Name} {s s' : Volume}

/-- Another name is given to a new object. -/
theorem Volume.Adds.entry_old {dir' : NfsFh} {name' : Name} {data : Option (List UInt8)}
    {text : Option Name} (h : s.Adds dir' name' data text s') (hne : ¬(dir = dir' ∧ name = name')) :
    s'.entry dir name = s.entry dir name := by
  obtain ⟨-, new, -, -, rfl⟩ := h
  rw [setEntry_entry, if_neg hne]
  rfl

theorem Rpc.Done.entry_none {rpc : Rpc} (h : rpc.Done s s')
    (hkeeps : rpc.keepsAbsent dir name = true) (hnone : s.entry dir name = none) :
    s'.entry dir name = none := by
  cases rpc with
  | setattr fh attrs =>
      obtain rfl : s' = s.resize fh attrs.size := h
      rw [Volume.resize_entry, hnone]
  | write fh off count stable data =>
      rw [h.2]
      exact hnone
  | create dir' name' how =>
      rcases h with hadds | ⟨-, fh', -, rfl⟩
      · exact (hadds.entry_old (of_decide_eq_true hkeeps)).trans hnone
      · rw [Volume.resize_entry, hnone]
  | mkdir | symlink | mknod =>
      exact (Volume.Adds.entry_old h (of_decide_eq_true hkeeps)).trans hnone
  | remove | rmdir =>
      obtain ⟨-, s₁, hdrops, rfl⟩ := h
      rw [Volume.setEntry_entry, hdrops.entry_eq, hnone, ite_self]
  | rename dir' name' toDir toName =>
      have hne : ¬(dir = toDir ∧ name = toName) := of_decide_eq_true hkeeps
      obtain ⟨fh, -, ⟨-, rfl⟩ | ⟨-, s₁, hdrops, rfl⟩⟩ := h
      · exact hnone
      · rw [Volume.setEntry_entry, if_neg hne, Volume.setEntry_entry, hdrops.entry_eq, hnone,
          ite_self]
  | link fh dir' name' =>
      rw [h.2, Volume.setEntry_entry, if_neg (of_decide_eq_true hkeeps), hnone]
  | _ => exact (congrArg (Volume.entry · dir name) h).trans hnone

theorem Rpc.keepsAbsent_part (rpc : Rpc) (n : Nat) :
    (rpc.part n).keepsAbsent dir name = rpc.keepsAbsent dir name := by
  cases rpc <;> rfl

theorem Served.entry_none {rpc : Rpc} (h : Served rpc s s')
    (hkeeps : rpc.keepsAbsent dir name = true) (hnone : s.entry dir name = none) :
    s'.entry dir name = none := by
  rcases h with rfl | ⟨n, hn⟩
  · exact hnone
  · exact hn.entry_none ((rpc.keepsAbsent_part n).trans hkeeps) hnone

end keepsAbsent

/-- The steps that do not give the name to anything. -/
def Step.KeepsAbsent (st : Step) (dir : NfsFh) (name : Name) : Prop :=
  ∀ rpc, st.req.change st.before = some rpc → rpc.keepsAbsent dir name = true

/-- The requests that remove a name. -/
def Request.removes (parent : UInt64) (name : Name) : Request → Prop
  | .unlink parent' name' | .rmdir parent' name' => parent' = parent ∧ name' = name
  | _ => False

/-- A name after its removal has been reported. -/
theorem Step.entry_of_removes {st : Step} (h : st.req.Handled st.before st.events st.after)
    (hrange : st.req.InRange) (hreports : st.before.Reports st.after) {parent : UInt64}
    {name : Name} (hreq : st.req.removes parent name) {i : Inode}
    (hi : st.before.inode parent = some i) {s s' : Volume}
    (hsteps : (network volumeServes).Steps s st.events s') : s'.entry i.fh name = none := by
  have heffect := Step.effect h hrange hsteps
  obtain ⟨before, req, events, after⟩ := st
  cases req with
  | unlink parent' name' =>
      obtain ⟨rfl, rfl⟩ := hreq
      have hchange : (Request.unlink parent' name').change before = some (.remove i.fh name') :=
        congrArg (Option.map _) hi
      rw [Request.Effect, hchange] at heffect
      exact Volume.Removes.entry_eq_none (heffect.2 hreports)
  | rmdir parent' name' =>
      obtain ⟨rfl, rfl⟩ := hreq
      have hchange : (Request.rmdir parent' name').change before = some (.rmdir i.fh name') :=
        congrArg (Option.map _) hi
      rw [Request.Effect, hchange] at heffect
      exact Volume.Removes.entry_eq_none (heffect.2 hreports)
  | _ => exact hreq.elim

/-- **What has been removed is not found**: if the success of the removal has been reported, and no
step between the two gives the name to anything, then whatever the network has lost, a lookup of the
name is not answered with an entry. -/
theorem session_removed_gone {earlier later : List Step} {rm lk : Step} {d : Daemon}
    (h : Session (fun _ st ↦ st.req.InRange) (lk :: (later ++ rm :: earlier)) d) {s s' : Volume}
    (hsteps : (network volumeServes).Steps s (eventsOf (lk :: (later ++ rm :: earlier))) s')
    {parent : UInt64} {name : Name} {i : Inode} (hrm : rm.req.removes parent name)
    (hi : rm.before.inode parent = some i) (hreports : rm.before.Reports rm.after)
    (hlater : ∀ st ∈ later, st.KeepsAbsent i.fh name) {parent' : UInt64} {j : Inode}
    (hlk : lk.req = .lookup parent' name) (hj : lk.before.inode parent' = some j)
    (hsame : j.fh = i.fh) (e : EntryParam) : Reply.entry e ∉ lk.replies := by
  intro hentry
  obtain ⟨hmemLater, hmem⟩ := List.forall_mem_append.1 (List.forall_mem_cons.1 h.forall_mem).2
  obtain ⟨hhandled, hrange⟩ := hmem rm List.mem_cons_self
  obtain ⟨s₀, s₁, s₂, hremove, hbetween, rounds, hlook⟩ := h.exists_volumes hsteps
  have hgone := Step.entry_of_removes hhandled hrange hreports hrm hi hremove
  have hstill : s₂.entry i.fh name = none :=
    keeps_of_steps (P := fun v ↦ v.entry i.fh name = none) hmemLater
      (fun st hst rpc hchange _ _ hserved ↦ hserved.entry_none (hlater st hst rpc hchange))
      hgone hbetween
  have htrue := Request.truth_of_exec hlook _ hentry
  rw [hlk] at htrue
  obtain ⟨j', hj', hthere⟩ := htrue
  obtain rfl := Option.some.inj (hj.symm.trans hj')
  rw [hsame] at hthere
  exact hthere hstill

/-- A file and a link are removed, and the file is looked up. -/
theorem session_removed_gone_unlink : ∃ (rm other lk : Step) (s' : Volume),
    Session (fun _ st ↦ st.req.InRange) [lk, other, rm] lk.after ∧
    (network volumeServes).Steps linkedVolume (eventsOf [lk, other, rm]) s' ∧
    rm.req = .unlink 1 [97] ∧ rm.before.Reports rm.after ∧ lk.req = .lookup 1 [97] ∧
    lk.replies = [.err 2] ∧ ∀ e, Reply.entry e ∉ lk.replies := by
  have hplay : (sampleMount.bind fun d ↦ ((Request.unlink 1 [97]).playOn 0 (d, linkedVolume)).bind
      fun r₁ ↦ ((Request.unlink 1 [98]).playOn 0 r₁).bind
      fun r₂ ↦ ((Request.lookup 1 [97]).playOn 0 r₂).map
      fun r₃ ↦ (d, r₁, r₂, r₃)).any
        (fun q ↦ decide (q.2.1.1.replies = q.1.replies ++ [.err 0] ∧
          (q.1.inode 1).map Inode.fh = some sampleRoot ∧
          (q.2.2.1.1.inode 1).map Inode.fh = some sampleRoot ∧
          q.2.2.2.1.replies = q.2.2.1.1.replies ++ [.err 2])) = true := by
    decide +kernel
  obtain ⟨⟨d, ⟨d₁, s₁⟩, ⟨d₂, s₂⟩, ⟨d₃, s₃⟩⟩, hplay, hchecks⟩ := (Option.any_eq_true _ _).1 hplay
  obtain ⟨hremove, hi, hj, hlook⟩ := of_decide_eq_true hchecks
  obtain ⟨d, hd, hplay⟩ := Option.bind_eq_some_iff.1 hplay
  obtain ⟨r₁, hplay₁, hplay⟩ := Option.bind_eq_some_iff.1 hplay
  obtain ⟨r₂, hplay₂, hplay⟩ := Option.bind_eq_some_iff.1 hplay
  obtain ⟨r₃, hplay₃, heq⟩ := Option.map_eq_some_iff.1 hplay
  cases heq
  obtain ⟨es₁, hrm, hsteps⟩ :=
    Session.of_playOn (.mounted (mounted_of_play hd)) (.nil linkedVolume) hplay₁ trivial
  obtain ⟨es₂, hother, hsteps⟩ := hrm.of_playOn hsteps hplay₂ trivial
  obtain ⟨es₃, hlk, hsteps⟩ := hother.of_playOn hsteps hplay₃ trivial
  obtain ⟨i, hi, hfh⟩ := Option.map_eq_some_iff.1 hi
  obtain ⟨j, hj, hfh'⟩ := Option.map_eq_some_iff.1 hj
  let rm : Step := ⟨d, .unlink 1 [97], es₁, d₁⟩
  let other : Step := ⟨d₁, .unlink 1 [98], es₂, d₂⟩
  let lk : Step := ⟨d₂, .lookup 1 [97], es₃, d₃⟩
  have hlk : Session (fun _ st ↦ st.req.InRange) (lk :: ([other] ++ rm :: [])) d₃ := hlk
  have hreports : d.Reports d₁ := (reports_iff hremove).2 rfl
  have hkeeps : ∀ st ∈ [other], st.KeepsAbsent i.fh [97] := by
    refine List.forall_mem_singleton.2 fun rpc hchange ↦ ?_
    obtain ⟨k, -, rfl⟩ := Option.map_eq_some_iff.1 hchange
    rfl
  have hreplies : lk.replies = [.err 2] := by
    change d₃.replies.drop d₂.replies.length = _
    rw [hlook, List.drop_left]
  exact ⟨rm, other, lk, s₃, hlk, hsteps, rfl, hreports, rfl, hreplies,
    session_removed_gone hlk hsteps ⟨rfl, rfl⟩ hi hreports hkeeps rfl hj (hfh'.trans hfh.symm)⟩

end Hsfs
