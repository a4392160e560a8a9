import Hsfs.Daemon.Rpc
import Hsfs.Fuse.Session
import Hsfs.Interact.While

/-!
# Reading and writing with any server

`hsx_fuse_read` adds up the counts of the replies and copies the data of each reply to where the
counter points.  `hsx_fuse_write` adds up the counts.  Neither compares a reply with what was asked
for, so what becomes of the buffer and of the counter is up to the server.

The loops are taken as rounds here (`readLoop_eq`, `writeLoop_eq`), and a state of the first one
also says what has been copied so far.  `loops_tolerate_iff` says with which replies the buffer is
kept to and every round makes progress.
-/

namespace Hsfs

open Interact Interact.Act

/-! ## The loops as rounds -/

/-- A state of the loop of `hsx_fuse_read`. -/
structure ReadState where
  cnt : Nat
  /-- What `memcpy` has copied, and to which place of the buffer. -/
  copies : List (Nat × List UInt8)

namespace ReadState

/-- The state before the loop. -/
def start : ReadState := ⟨0, []⟩

/-- The buffer. -/
def buf (s : ReadState) : List UInt8 := s.copies.foldl (fun buf c ↦ storeAt buf c.1 c.2) []

/-- The number of bytes that have been stored. -/
def stored (s : ReadState) : Nat := (s.copies.map (·.2.length)).sum

/-- The state after a reply. -/
def step (resok : Read3resok) (s : ReadState) : ReadState :=
  ⟨s.cnt + resok.count.toNat, s.copies ++ [(s.cnt, resok.data)]⟩

@[simp] theorem cnt_step (resok : Read3resok) (s : ReadState) :
    (s.step resok).cnt = s.cnt + resok.count.toNat := rfl

@[simp] theorem buf_step (resok : Read3resok) (s : ReadState) :
    (s.step resok).buf = storeAt s.buf s.cnt resok.data := List.foldl_concat ..

@[simp] theorem stored_step (resok : Read3resok) (s : ReadState) :
    (s.step resok).stored = s.stored + resok.data.length := by
  simp [stored, step]

/-- The loop goes on. -/
def goes (size : Nat) (s : ReadState) : Bool := s.cnt < size

theorem goes_iff {size : Nat} {s : ReadState} : s.goes size = true ↔ s.cnt < size :=
  decide_eq_true_iff

end ReadState

/-- The body of the loop in `hsx_fuse_read`. -/
def readRound (inode : Addr) (size : Nat) (off : UInt64) (s : ReadState) :
    Hs (Except Int (ReadState × Bool)) := do
  let d ← Act.get
  let tmpSize := min (size - s.cnt) d.sb.rsize.toNat
  match ← hsiNfs3Read inode (off + s.cnt.toUInt64) tmpSize.toUInt32 with
  | .error err => pure (.error err)
  | .ok resok => pure (.ok (s.step resok, !resok.eof))

/-- The body of the loop in `hsx_fuse_write`. -/
def writeRound (inode : Addr) (buf : List UInt8) (off : UInt64) (stable : UInt32) (cnt : Nat) :
    Hs (Except Int (Nat × Bool)) := do
  let d ← Act.get
  let tmpSize := min (buf.length - cnt) d.sb.wsize.toNat
  match ← hsiNfs3Write inode (off + cnt.toUInt64) tmpSize.toUInt32 stable
      ((buf.drop cnt).take tmpSize) with
  | .error err => pure (.error err)
  | .ok count => pure (.ok (cnt + count.toNat, true))

/-- The loop of `hsx_fuse_write` goes on. -/
def writeGoes (size cnt : Nat) : Bool := cnt < size

theorem writeGoes_iff {size cnt : Nat} : writeGoes size cnt = true ↔ cnt < size :=
  decide_eq_true_iff

/-- **The loop of `hsx_fuse_read` makes its rounds.** -/
theorem readLoop_eq (inode : Addr) (size : Nat) (off : UInt64) (rounds : Nat) (s : ReadState) :
    readLoop inode size off rounds s.buf s.cnt =
      whileLoop .running (ReadState.goes size) (readRound inode size off) rounds s >>= fun r ↦
        pure (r.map fun s ↦ (s.buf, s.cnt)) := by
  induction rounds generalizing s with
  | zero => rfl
  | succ rounds ih =>
      unfold readLoop whileLoop
      by_cases hgoes : s.cnt < size
      · rw [if_pos hgoes, if_pos (ReadState.goes_iff.2 hgoes)]
        unfold readRound
        simp only [bind_bind]
        congr 1
        funext d
        congr 1
        funext r
        cases r with
        | error err => rfl
        | ok resok =>
            dsimp only
            rw [← ReadState.buf_step, ← ReadState.cnt_step]
            cases resok.eof with
            | true => rfl
            | false => exact ih (s.step resok)
      · rw [if_neg hgoes, if_neg (mt ReadState.goes_iff.1 hgoes)]
        rfl

/-- **The loop of `hsx_fuse_write` makes its rounds.** -/
theorem writeLoop_eq (inode : Addr) (buf : List UInt8) (off : UInt64) (stable : UInt32)
    (rounds cnt : Nat) : writeLoop inode buf off stable rounds cnt =
      whileLoop .running (writeGoes buf.length) (writeRound inode buf off stable) rounds cnt := by
  induction rounds generalizing cnt with
  | zero => rfl
  | succ rounds ih =>
      unfold writeLoop whileLoop
      by_cases hgoes : cnt < buf.length
      · rw [if_pos hgoes, if_pos (writeGoes_iff.2 hgoes)]
        unfold writeRound
        simp only [bind_bind]
        congr 1
        funext d
        congr 1
        funext r
        cases r with
        | error err => rfl
        | ok count => exact ih (cnt + count.toNat)
      · rw [if_neg hgoes, if_neg (mt writeGoes_iff.1 hgoes)]

/-! ## What the replies add -/

/-- What a `READ` that succeeds replies. -/
def readReply : (req : Rpc) → req.Res → Option Read3resok
  | .read _ _ _, .ok resok => some resok
  | _, _ => none

/-- The count of a `WRITE` that succeeds. -/
def writeReply : (req : Rpc) → req.Res → Option UInt32
  | .write _ _ _ _ _, .ok count => some count
  | _, _ => none

section replies

variable (inode : Addr) (d : Daemon)

/-- A handle is taken from memory, or from no memory. -/
theorem ends_getfh3 : Ends (fun es _ d' ↦ es = [] ∧ d' = d) (fun es _ _ ↦ es = [])
    (hsiNfs3Getfh3 inode) d := by
  unfold hsiNfs3Getfh3 load
  rw [bind_bind]
  refine .ret_bind rfl ?_
  cases d.heap inode with
  | some i => exact .ret_bind rfl (.pure ⟨rfl, rfl⟩)
  | none =>
      dsimp only
      split
      · exact .ret_bind rfl (.pure ⟨rfl, rfl⟩)
      · exact .of_fault rfl rfl

theorem ends_hsiNfs3Read (rwOff : UInt64) (rwSize : UInt32) :
    Ends (fun es r _ ↦ picked readReply es = r.toOption.toList) (fun es _ _ ↦ es = [])
      (hsiNfs3Read inode rwOff rwSize) d := by
  unfold hsiNfs3Read
  refine .ret_bind rfl ((ends_getfh3 inode d).bind ?_ fun _ _ _ h ↦ h)
  rintro _ fh _ ⟨rfl, rfl⟩
  refine ends_call_bind (ends_call (.inl rfl) _) (fun es err d' hcall _ _ ↦ ?_)
    fun es res d' hcall _ ↦ ?_
  · refine .pure ?_
    rw [List.append_nil]
    exact hcall.picked_error readReply
  · have hreply := hcall.picked_ok readReply
    rw [← List.append_nil es] at hreply
    cases res with
    | fail status => exact .ret_bind rfl (.pure hreply)
    | ok resok => exact .ret_bind rfl (.pure hreply)

theorem ends_hsiNfs3Write (rwOff : UInt64) (rwSize stable : UInt32) (data : List UInt8) :
    Ends (fun es r _ ↦ picked writeReply es = r.toOption.toList) (fun es _ _ ↦ es = [])
      (hsiNfs3Write inode rwOff rwSize stable data) d := by
  unfold hsiNfs3Write
  refine .ret_bind rfl ((ends_getfh3 inode d).bind ?_ fun _ _ _ h ↦ h)
  rintro _ fh _ ⟨rfl, rfl⟩
  refine ends_call_bind (ends_call (.inl rfl) _) (fun es err d' hcall _ _ ↦ ?_)
    fun es res d' hcall _ ↦ ?_
  · refine .pure ?_
    rw [List.append_nil]
    exact hcall.picked_error writeReply
  · have hreply := hcall.picked_ok writeReply
    rw [← List.append_nil es] at hreply
    cases res with
    | fail status => exact .ret_bind rfl (.pure hreply)
    | ok count => exact .ret_bind rfl (.pure hreply)

/-- A round of the first loop takes one reply. -/
theorem ends_readRound (size : Nat) (off : UInt64) (s : ReadState) :
    Ends (fun es r _ ↦ ∀ s' again, r = .ok (s', again) →
        ∃ resok, picked readReply es = [resok] ∧ s' = s.step resok ∧ again = !resok.eof)
      (fun _ _ _ ↦ True) (readRound inode size off s) d := by
  unfold readRound
  refine .ret_bind rfl ((ends_hsiNfs3Read inode d _ _).bind ?_ fun _ _ _ _ ↦ trivial)
  rintro es (err | resok) d' hes
  · refine .pure ?_
    rintro s' again ⟨⟩
  · refine .pure ?_
    rintro _ _ ⟨⟩
    rw [List.append_nil]
    exact ⟨resok, hes, rfl, rfl⟩

/-- A round of the second loop takes one reply. -/
theorem ends_writeRound (buf : List UInt8) (off : UInt64) (stable : UInt32) (cnt : Nat) :
    Ends (fun es r _ ↦ ∀ cnt' again, r = .ok (cnt', again) →
        ∃ count, picked writeReply es = [count] ∧ cnt' = cnt + count.toNat ∧ again = true)
      (fun _ _ _ ↦ True) (writeRound inode buf off stable cnt) d := by
  unfold writeRound
  refine .ret_bind rfl ((ends_hsiNfs3Write inode d _ _ _ _).bind ?_ fun _ _ _ _ ↦ trivial)
  rintro es (err | count) d' hes
  · refine .pure ?_
    rintro cnt' again ⟨⟩
  · refine .pure ?_
    rintro _ _ ⟨⟩
    rw [List.append_nil]
    exact ⟨count, hes, rfl, rfl⟩

end replies

/-! ## What the loops can cope with -/

/-- What is asked of a state of the loop in `hsx_fuse_read`. -/
structure ReadState.Safe (size : Nat) (s : ReadState) : Prop where
  /-- No byte is stored behind the first `size` ones. -/
  inside : ∀ c ∈ s.copies, ∀ j < c.2.length, c.1 + j < size
  le_size : s.cnt ≤ size
  cnt_eq : s.cnt = s.stored

/-- Every round of `hsx_fuse_read` leaves a safe state, and increases the counter or ends the
loop. -/
def ReadTolerated (size : Nat) (rs : List (Round ReadState)) : Prop :=
  ∀ r ∈ rs, r.after.Safe size ∧
    (r.before.cnt < r.after.cnt ∨ r.again = false ∨ r.after.goes size = false)

/-- Every round of `hsx_fuse_write` leaves a counter that does not exceed `size`, and increases it
or ends the loop. -/
def WriteTolerated (size : Nat) (rs : List (Round Nat)) : Prop :=
  ∀ r ∈ rs, r.after ≤ size ∧ (r.before < r.after ∨ r.again = false ∨ writeGoes size r.after = false)

/-- A reply with as many bytes as it counts, no more than are missing, and some unless it is the
last. -/
def Read3resok.Fits (size cnt : Nat) (resok : Read3resok) : Prop :=
  resok.count.toNat = resok.data.length ∧ cnt + resok.count.toNat ≤ size ∧
    (resok.eof = true ∨ resok.count ≠ 0)

/-- Each of some replies to `READ` fits, one after the other. -/
def FitReads (size : Nat) : Nat → List Read3resok → Prop
  | _, [] => True
  | cnt, resok :: rest => resok.Fits size cnt ∧ FitReads size (cnt + resok.count.toNat) rest

/-- Each of some counts of `WRITE` is not zero and no more than is missing. -/
def FitWrites (size : Nat) : Nat → List UInt32 → Prop
  | _, [] => True
  | cnt, count :: rest =>
      (count ≠ 0 ∧ cnt + count.toNat ≤ size) ∧ FitWrites size (cnt + count.toNat) rest

theorem toNat_pos_iff {count : UInt32} : 0 < count.toNat ↔ count ≠ 0 := by
  rw [Nat.pos_iff_ne_zero, ne_eq, ne_eq, ← UInt32.toNat_inj]
  rfl

theorem ReadState.safe_start (size : Nat) : start.Safe size :=
  ⟨fun _ hc ↦ absurd hc List.not_mem_nil, Nat.zero_le size, rfl⟩

section

variable {size : Nat} {s : ReadState}

/-- **One reply**: what it does to a safe state. -/
theorem ReadState.Safe.step_iff (h : s.Safe size) (hgoes : s.goes size = true) {resok : Read3resok}
    {again : Bool} (hagain : again = !resok.eof) :
    ((s.step resok).Safe size ∧
      (s.cnt < (s.step resok).cnt ∨ again = false ∨ (s.step resok).goes size = false)) ↔
      resok.Fits size s.cnt := by
  rw [goes_iff] at hgoes
  have hcnt := h.cnt_eq
  constructor
  · rintro ⟨hsafe, hprogress⟩
    have hcnt' := hsafe.cnt_eq
    have hle := hsafe.le_size
    rw [cnt_step] at hcnt' hle
    rw [stored_step] at hcnt'
    refine ⟨by omega, hle, ?_⟩
    rcases hprogress with hmore | heof | hend
    · rw [cnt_step] at hmore
      exact .inr (toNat_pos_iff.1 (by omega))
    · exact .inl ((Bool.not_eq_false' _).mp (hagain.symm.trans heof))
    · rw [goes, cnt_step, decide_eq_false_iff_not] at hend
      exact .inr (toNat_pos_iff.1 (by omega))
  · rintro ⟨hlen, hle, hmore⟩
    refine ⟨⟨?_, ?_, ?_⟩, ?_⟩
    · intro c hc j hj
      rcases List.mem_append.1 hc with hc | hc
      · exact h.inside c hc j hj
      · rw [List.mem_singleton.1 hc] at hj ⊢
        dsimp only at hj ⊢
        omega
    · rw [cnt_step]
      exact hle
    · rw [cnt_step, stored_step]
      omega
    · rcases hmore with heof | hmore
      · exact .inr (.inl (hagain.trans ((Bool.not_eq_false' _).mpr heof)))
      · rw [cnt_step]
        exact .inl (Nat.lt_add_of_pos_right (toNat_pos_iff.2 hmore))

/-- **The loop of `hsx_fuse_read`, from any safe state.** -/
theorem readTolerated_iff_of_safe {inode : Addr} {off : UInt64} {d : Daemon} {es : List Event}
    {rs : List (Round ReadState)}
    (h : Rounds (ReadState.goes size) (readRound inode size off) s d es rs) (hs : s.Safe size) :
    ReadTolerated size rs ↔ FitReads size s.cnt (picked readReply es) := by
  induction h with
  | nil s d => exact iff_of_true (fun _ hr ↦ absurd hr List.not_mem_nil) trivial
  | @last s s' d d' es hgoes hx =>
      obtain ⟨resok, hes, rfl, hagain⟩ := (ends_readRound inode d size off s).exec_ok hx _ _ rfl
      rw [hes, FitReads, ReadTolerated, List.forall_mem_singleton, FitReads, and_true]
      exact hs.step_iff hgoes hagain
  | @cons s s' d d' es es' rs hgoes hx hrs ih =>
      obtain ⟨resok, hes, rfl, hagain⟩ := (ends_readRound inode d size off s).exec_ok hx _ _ rfl
      rw [picked_append, hes, List.singleton_append, FitReads, ReadTolerated, List.forall_mem_cons,
        ← hs.step_iff hgoes hagain]
      exact and_congr_right fun hnext ↦ ih hnext.1

/-- **The loop of `hsx_fuse_write`, from any counter.** -/
theorem writeTolerated_iff {inode : Addr} {buf : List UInt8} {off : UInt64} {stable : UInt32}
    {cnt : Nat} {d : Daemon} {es : List Event} {rs : List (Round Nat)}
    (h : Rounds (writeGoes buf.length) (writeRound inode buf off stable) cnt d es rs) :
    WriteTolerated buf.length rs ↔ FitWrites buf.length cnt (picked writeReply es) := by
  induction h with
  | nil s d => exact iff_of_true (fun _ hr ↦ absurd hr List.not_mem_nil) trivial
  | @last cnt cnt' d d' es hgoes hx =>
      obtain ⟨count, -, -, hagain⟩ :=
        (ends_writeRound inode d buf off stable cnt).exec_ok hx _ _ rfl
      cases hagain
  | @cons cnt cnt' d d' es es' rs hgoes hx hrs ih =>
      obtain ⟨count, hes, rfl, -⟩ := (ends_writeRound inode d buf off stable cnt).exec_ok hx _ _ rfl
      rw [picked_append, hes, List.singleton_append, FitWrites, WriteTolerated,
        List.forall_mem_cons]
      refine and_congr ?_ ih
      have hlt := writeGoes_iff.1 hgoes
      rw [← toNat_pos_iff, writeGoes, decide_eq_false_iff_not]
      dsimp only
      constructor
      · rintro ⟨hle, hmore | ⟨⟨⟩⟩ | hend⟩ <;> omega
      · rintro ⟨hmore, hle⟩
        exact ⟨hle, .inl (by omega)⟩

end

/-- The rounds of a call of `hsx_fuse_read`. -/
abbrev ReadRounds (inode : Addr) (size : Nat) (off : UInt64) :
    Daemon → List Event → List (Round ReadState) → Prop :=
  Rounds (ReadState.goes size) (readRound inode size off) .start

/-- The rounds of a call of `hsx_fuse_write`. -/
abbrev WriteRounds (inode : Addr) (buf : List UInt8) (off : UInt64) (stable : UInt32) :
    Daemon → List Event → List (Round Nat) → Prop :=
  Rounds (writeGoes buf.length) (writeRound inode buf off stable) 0

/-- Every execution of the loop in `hsx_fuse_read` makes such rounds, and returns the last state. -/
theorem ends_readLoop (inode : Addr) (size : Nat) (off : UInt64) (rounds : Nat) (d : Daemon) :
    Ends (fun es r _ ↦ ∃ es₁ es₂ rs, es = es₁ ++ es₂ ∧ ReadRounds inode size off d es₁ rs ∧
        ∀ buf cnt, r = .ok (buf, cnt) →
          buf = (Round.final .start rs).buf ∧ cnt = (Round.final .start rs).cnt)
      (fun es _ _ ↦ ∃ es₁ es₂ rs, es = es₁ ++ es₂ ∧ ReadRounds inode size off d es₁ rs)
      (readLoop inode size off rounds [] 0) d := by
  rw [show readLoop inode size off rounds [] 0 = _ from readLoop_eq inode size off rounds .start]
  refine .map ((ends_whileLoop rounds ReadState.start d).mono ?_ fun _ _ _ h ↦ h)
  rintro es (err | s) d' ⟨es₁, es₂, rs, hes, hrs, hlast⟩
  · exact ⟨es₁, es₂, rs, hes, hrs, by rintro _ _ ⟨⟩⟩
  · refine ⟨es₁, es₂, rs, hes, hrs, ?_⟩
    rintro _ _ ⟨⟩
    obtain ⟨-, rfl⟩ := hlast s rfl
    exact ⟨rfl, rfl⟩

/-- Every execution of the loop in `hsx_fuse_write` makes such rounds, and returns the last
counter. -/
theorem ends_writeLoop (inode : Addr) (buf : List UInt8) (off : UInt64) (stable : UInt32)
    (rounds : Nat)
    (d : Daemon) :
    Ends (fun es r _ ↦ ∃ es₁ es₂ rs, es = es₁ ++ es₂ ∧ WriteRounds inode buf off stable d es₁ rs ∧
        ∀ cnt, r = .ok cnt → es₂ = [] ∧ cnt = Round.final 0 rs)
      (fun es _ _ ↦ ∃ es₁ es₂ rs, es = es₁ ++ es₂ ∧ WriteRounds inode buf off stable d es₁ rs)
      (writeLoop inode buf off stable rounds 0) d := by
  rw [writeLoop_eq]
  exact ends_whileLoop rounds 0 d

/-- **The loops cope with the replies of a server just if these fit.** -/
theorem loops_tolerate_iff (inode : Addr) (off : UInt64) (d : Daemon) (es : List Event) :
    (∀ size rs, ReadRounds inode size off d es rs →
      (ReadTolerated size rs ↔ FitReads size 0 (picked readReply es))) ∧
    ∀ buf stable rs, WriteRounds inode buf off stable d es rs →
      (WriteTolerated buf.length rs ↔ FitWrites buf.length 0 (picked writeReply es)) :=
  ⟨fun size _ h ↦ readTolerated_iff_of_safe h (ReadState.safe_start size),
    fun _ _ _ h ↦ writeTolerated_iff h⟩

/-! ## Runs with one reply -/

section runs

variable {d : Daemon} {p : Addr} {i : Inode}

/-- Any reply may come. -/
theorem exec_reply (clnt : Client) (req : Rpc) (res : req.Res) :
    Prog.Exec Server.record ((hsiNfs3ClntCall clnt req).run d) [] (.ok (.ok res), d.useClient clnt)
      [(⟨.clntCall clnt req, .done res⟩ : Event)] := by
  unfold hsiNfs3ClntCall hsiNfs3ClntCallLoop
  exact .call (r := RpcReply.done res) rfl (.ret _ _)

theorem exec_readRound (hi : d.heap p = some i) (size : Nat) (off : UInt64) (s : ReadState)
    (resok : Read3resok) :
    ∃ es d', Prog.Exec Server.record ((readRound p size off s).run d) []
      (.ok (.ok (s.step resok, !resok.eof)), d') es ∧ picked readReply es = [resok] := by
  let req := Rpc.read i.fh (off + s.cnt.toUInt64) (min (size - s.cnt) d.sb.rsize.toNat).toUInt32
  refine ⟨[(⟨.clntCall d.sb.clntp req, .done (.ok resok)⟩ : Event)],
    (d.useClient d.sb.clntp).useClient d.sb.clntp, ?_, rfl⟩
  unfold readRound hsiNfs3Read hsiNfs3Getfh3 sbClntp
  refine exec_bind (exec_of_ret rfl) (exec_bind (a := .ok resok) ?_ (.ret _ _))
  exact exec_bind (exec_of_ret rfl) <|
    exec_bind (exec_bind (exec_of_ret (load_run hi)) (.ret _ _)) <|
    exec_bind (exec_reply _ req (.ok resok)) <| exec_bind (exec_of_ret rfl) (.ret _ _)

theorem exec_writeRound (hi : d.heap p = some i) (buf : List UInt8) (off : UInt64) (stable : UInt32)
    (cnt : Nat) (count : UInt32) :
    ∃ es d', Prog.Exec Server.record ((writeRound p buf off stable cnt).run d) []
      (.ok (.ok (cnt + count.toNat, true)), d') es ∧ picked writeReply es = [count] := by
  let tmpSize := min (buf.length - cnt) d.sb.wsize.toNat
  let req := Rpc.write i.fh (off + cnt.toUInt64) tmpSize.toUInt32 stable
    ((buf.drop cnt).take tmpSize)
  refine ⟨[(⟨.clntCall d.sb.clntp req, .done (.ok count)⟩ : Event)],
    (d.useClient d.sb.clntp).useClient d.sb.clntp, ?_, rfl⟩
  unfold writeRound hsiNfs3Write hsiNfs3Getfh3 sbClntp
  refine exec_bind (exec_of_ret rfl) (exec_bind (a := .ok count) ?_ (.ret _ _))
  exact exec_bind (exec_of_ret rfl) <|
    exec_bind (exec_bind (exec_of_ret (load_run hi)) (.ret _ _)) <|
    exec_bind (exec_reply _ req (.ok count)) <| exec_bind (exec_of_ret rfl) (.ret _ _)

end runs

/-- A mounted directory is in memory. -/
theorem exists_sampleMount : ∃ d i, sampleMount = some d ∧ d.heap d.sb.root = some i := by
  obtain ⟨d, hd⟩ : ∃ d, sampleMount = some d := Option.isSome_iff_exists.1 (by decide +kernel)
  have hmounted := mounted_of_play hd
  obtain ⟨i, hi⟩ := hmounted.extends_start.1.live _ hmounted.rootOk.mem
  exact ⟨d, i, hd, hi⟩

/-- Two bytes are read and one is written. -/
theorem loops_tolerate_iff_whole : ∃ d es rs es' rs', sampleMount = some d ∧
    ReadRounds d.sb.root 2 0 d es rs ∧ ReadTolerated 2 rs ∧ rs.length = 1 ∧
    WriteRounds d.sb.root [7] 0 hsfsUnstable d es' rs' ∧ WriteTolerated 1 rs' ∧ rs'.length = 1 := by
  obtain ⟨d, i, hd, hi⟩ := exists_sampleMount
  obtain ⟨es, d₁, hx, hes⟩ := exec_readRound hi 2 0 .start ⟨2, true, [1, 2]⟩
  obtain ⟨es', d₂, hx', hes'⟩ := exec_writeRound hi [7] 0 hsfsUnstable 0 1
  have hread : ReadRounds d.sb.root 2 0 d es _ := .last rfl hx
  have hwrite : WriteRounds d.sb.root [7] 0 hsfsUnstable d _ _ := .cons rfl hx' (.nil _ _)
  have hfits : FitReads 2 0 [⟨2, true, [1, 2]⟩] := ⟨⟨rfl, Nat.le_refl 2, .inl rfl⟩, trivial⟩
  have hfits' : FitWrites 1 0 [1] := ⟨⟨by decide, Nat.le_refl 1⟩, trivial⟩
  refine ⟨d, es, _, _, _, hd, hread, ?_, rfl, hwrite, ?_, rfl⟩
  · exact ((loops_tolerate_iff d.sb.root 0 d es).1 2 _ hread).2 (hes ▸ hfits)
  · refine ((loops_tolerate_iff d.sb.root 0 d (es' ++ [])).2 [7] hsfsUnstable _ hwrite).2 ?_
    rw [List.append_nil, hes']
    exact hfits'

/-- A server sends two bytes when one is asked for: the second one is stored behind the buffer. -/
theorem not_loops_tolerate : ¬ ∀ (inode : Addr) (off : UInt64) (d : Daemon) (es : List Event),
    (∀ size rs, ReadRounds inode size off d es rs → ReadTolerated size rs) ∧
    ∀ buf stable rs, WriteRounds inode buf off stable d es rs → WriteTolerated buf.length rs := by
  intro h
  obtain ⟨d, i, hd, hi⟩ := exists_sampleMount
  obtain ⟨es, d₁, hx, -⟩ := exec_readRound hi 1 0 .start ⟨2, true, [1, 2]⟩
  have hround := (h d.sb.root 0 d es).1 1 _ (.last rfl hx) _ List.mem_cons_self
  have hinside := hround.1.inside (0, [1, 2]) List.mem_cons_self 1 (Nat.lt_succ_self 1)
  exact Nat.lt_irrefl 1 hinside

end Hsfs
