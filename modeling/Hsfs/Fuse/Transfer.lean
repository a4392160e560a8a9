import Hsfs.Fuse.Session
import Hsfs.Nfs3.Fetch
import Hsfs.Nfs3.FileServer
import Mathlib.Data.List.GetD

/-!
# Reading and writing a file

`hsx_fuse_read` and `hsx_fuse_write` cut a request into pieces, and the server may cut every piece
short.  The loops go on from where the server stopped, so that the kernel gets the bytes of the
file, and the file gets the bytes of the kernel, whatever the server does with the pieces.

The invariant of both loops is about the `cnt` bytes that are done: they are the first bytes of what
was asked for.  Since no piece is empty, there are at most as many rounds as bytes.
-/

namespace Hsfs

open Interact Interact.Act Daemon

/-- Nothing has happened to the daemon but that it used its clients. -/
structure Daemon.Undisturbed (d d' : Daemon) : Prop where
  heap : d'.heap = d.heap
  sb : d'.sb = d.sb
  replies : d'.replies = d.replies

theorem Daemon.Undisturbed.trans {d d' d'' : Daemon} (h : d.Undisturbed d')
    (h' : d'.Undisturbed d'') :
    d.Undisturbed d'' :=
  ⟨h'.heap.trans h.heap, h'.sb.trans h.sb, h'.replies.trans h.replies⟩

section arithmetic

variable {off size : UInt64} {cnt : Nat}

/-- An offset in the file does not wrap around. -/
theorem toNat_offset_add (h : off.toNat + cnt < 2 ^ 63) :
    (off + cnt.toUInt64).toNat = off.toNat + cnt := by
  have hcnt : cnt.toUInt64.toNat = cnt := by
    rw [Nat.toUInt64, UInt64.toNat_ofNat']
    omega
  rw [UInt64.toNat_add, hcnt]
  omega

/-- The size of a piece fits in what is sent. -/
theorem toNat_piece (left : Nat) (most : UInt32) :
    (min left most.toNat).toUInt32.toNat = min left most.toNat := by
  have hmost := most.toNat_lt
  rw [Nat.toUInt32, UInt32.toNat_ofNat']
  omega

end arithmetic

/-! ## Reading -/

/-- The server of a file that does not change.  It answers `READ` with a part of what was asked for,
and with nothing only if there is nothing. -/
def readServes (fh : NfsFh) (file : List UInt8) : (req : Rpc) → Unit → req.Res → Unit → Prop
  | .read fh' off count, _, res, _ => fh' = fh → ∃ resok, res = .ok resok ∧
      resok.data <+: (file.drop off.toNat).take count.toNat ∧
      (resok.data = [] → (file.drop off.toNat).take count.toNat = []) ∧
      resok.count.toNat = resok.data.length ∧
      (resok.eof = true ↔ file.length ≤ off.toNat + resok.data.length)
  | _, _, _, _ => True

section read

variable {d : Daemon} {p : Addr} {i : Inode} {file : List UInt8}

/-- **`hsi_nfs3_read`** returns what the server has answered. -/
theorem wp_hsiNfs3Read (hi : d.heap p = some i) (rwOff : UInt64) (rwSize : UInt32) :
    wp (reliable (readServes i.fh file)) (hsiNfs3Read p rwOff rwSize)
      (fun r d' _ ↦ d.Undisturbed d' ∧ ∃ resok, r = .ok resok ∧
        readServes i.fh file (.read i.fh rwOff rwSize) () (.ok resok) ())
      (fun _ _ _ ↦ False) d () := by
  unfold hsiNfs3Read sbClntp
  simp only [wp_bind, wp_get, wp_pure, wp_of_ret (getfh3_run hi)]
  refine wp_mono ?_ (fun _ _ _ h ↦ h) (wp_call_reliable _ _)
  rintro _ _ ⟨⟩ ⟨res, rfl, rfl, hserved⟩
  obtain ⟨resok, rfl, -⟩ := hserved rfl
  exact ⟨⟨rfl, rfl, rfl⟩, resok, rfl, hserved⟩

/-- The bytes of a piece come right behind those that are there. -/
theorem storeAt_end (buf data : List UInt8) : storeAt buf buf.length data = buf ++ data := by
  rw [storeAt, List.take_length, Nat.sub_self, List.drop_eq_nil_of_le (Nat.le_add_right ..)]
  simp

/-- A beginning of what is left makes the beginning longer. -/
theorem take_append_of_prefix {l data : List UInt8} {cnt n : Nat}
    (h : data <+: (l.drop cnt).take n) :
    l.take cnt ++ data = l.take (cnt + data.length) := by
  rw [List.take_add, List.prefix_iff_eq_take.1 (h.trans (List.take_prefix n _))]
  simp

/-- **The loop of `hsx_fuse_read`**: the buffer holds the first bytes, and a round that does not
come to the end of the file adds some. -/
theorem wp_readLoop (hi : d.heap p = some i) (hrsize : d.sb.rsize ≠ 0) {off : UInt64} {size : Nat}
    (hsize : off.toNat + size < 2 ^ 63) {rounds : Nat} {buf : List UInt8}
    (hbuf : buf = (file.drop off.toNat).take buf.length) (hcnt : buf.length ≤ size)
    (hrounds : size - buf.length < rounds) :
    wp (reliable (readServes i.fh file)) (readLoop p size off rounds buf buf.length)
      (fun r d' _ ↦ d.Undisturbed d' ∧ ∃ bytes, r = .ok (bytes, bytes.length) ∧
        bytes = (file.drop off.toNat).take size)
      (fun _ _ _ ↦ False) d () := by
  -- every round leaves less to read
  induction rounds generalizing d buf with
  | zero => exact absurd hrounds (Nat.not_lt_zero _)
  | succ rounds ih =>
      unfold readLoop
      by_cases hmore : buf.length < size
      · have hrpos : 0 < d.sb.rsize.toNat := by
          refine Nat.pos_of_ne_zero fun h ↦ hrsize ?_
          exact UInt32.toNat_inj.1 h
        rw [if_pos hmore, wp_bind, wp_get, wp_bind]
        refine wp_mono ?_ (fun _ _ _ h ↦ h) (wp_hsiNfs3Read hi _ _)
        rintro _ d₁ _ ⟨hd₁, resok, rfl, hserved⟩
        obtain ⟨_, heq, hdata, hnone, hcount, heof⟩ := hserved rfl
        obtain rfl := Nfs3res.ok.inj heq
        rw [toNat_offset_add (by omega)] at hdata hnone heof
        rw [toNat_piece] at hdata hnone
        rw [← List.drop_drop] at hdata
        have hlength : resok.data.length ≤ size - buf.length := by
          have := hdata.length_le
          rw [List.length_take] at this
          omega
        have hnext : buf ++ resok.data =
            (file.drop off.toNat).take (buf ++ resok.data).length := by
          rw [List.length_append]
          calc buf ++ resok.data
              = (file.drop off.toNat).take buf.length ++ resok.data := by rw [← hbuf]
            _ = _ := take_append_of_prefix hdata
        dsimp only
        rw [storeAt_end, hcount, ← List.length_append]
        cases hend : resok.eof with
        | true =>
            -- the end of the file
            refine ⟨hd₁, _, rfl, hnext.trans ?_⟩
            have hall := heof.1 hend
            rw [List.length_append, List.take_of_length_le, List.take_of_length_le]
            all_goals
              rw [List.length_drop]
              omega
        | false =>
            have hsome : resok.data ≠ [] := by
              intro hnil
              have hnot := heof.not.1 (Bool.eq_false_iff.1 hend)
              have hpast := congrArg List.length (hnone hnil)
              rw [List.length_take, List.length_drop, List.length_nil] at hpast
              rw [hnil, List.length_nil] at hnot
              omega
            have hpos := List.length_pos_of_ne_nil hsome
            refine wp_mono ?_ (fun _ _ _ h ↦ h)
              (ih (d := d₁) (hd₁.heap ▸ hi) (hd₁.sb ▸ hrsize) hnext ?_ ?_)
            · exact fun _ d₂ _ h ↦ ⟨hd₁.trans h.1, h.2⟩
            · rw [List.length_append]
              omega
            · rw [List.length_append]
              omega
      · rw [if_neg hmore]
        refine ⟨⟨rfl, rfl, rfl⟩, buf, rfl, ?_⟩
        rw [Nat.le_antisymm hcnt (Nat.le_of_not_lt hmore)] at hbuf
        exact hbuf

end read

/-- **A read replies with the bytes of the file**, from the offset on, as many as were asked for or
up to the end of the file, after at most as many rounds as bytes were asked for. -/
theorem read_replies_bytes (file : List UInt8) {d : Daemon} {ino : UInt64} {p : Addr} {i : Inode}
    (hfound : d.ilookup ino = some p) (hi : d.heap p = some i) (hrsize : d.sb.rsize ≠ 0)
    {size off : UInt64} (hsize : off.toNat + size.toNat < 2 ^ 63) {rounds : Nat}
    (hrounds : size.toNat < rounds) {out : Except Fault Unit} {d' : Daemon}
    (hx : Prog.Exec (reliable (readServes i.fh file)) ((hsxFuseRead rounds ino size off).run d) ()
      (out, d') ()) :
    out = .ok () ∧ d'.replies = d.replies ++ [.buf ((file.drop off.toNat).take size.toNat)] := by
  have hwp : wp (reliable (readServes i.fh file)) (hsxFuseRead rounds ino size off)
      (fun _ d' _ ↦ d'.replies = d.replies ++ [.buf ((file.drop off.toNat).take size.toNat)])
      (fun _ _ _ ↦ False) d () := by
    unfold hsxFuseRead
    rw [wp_bind]
    refine wp_malloc_reliable ?_
    rw [if_pos rfl, wp_bind, wp_of_ret (hsfsIlookup_run hfound hi)]
    dsimp only
    rw [wp_bind]
    have hempty : ([] : List UInt8) = (file.drop off.toNat).take ([] : List UInt8).length := rfl
    refine wp_mono ?_ (fun _ _ _ h ↦ h)
      (wp_readLoop hi hrsize hsize hempty (Nat.zero_le _) hrounds)
    rintro _ d₁ _ ⟨hd₁, bytes, rfl, hbytes⟩
    have hreply : (storeAt bytes bytes.length []).take bytes.length = bytes := by
      rw [storeAt_end, List.append_nil, List.take_length]
    change d₁.replies ++ [.buf _] = _
    rw [hreply, hd₁.replies, hbytes]
  cases out with
  | ok _ => exact ⟨rfl, (wp_iff_exec.1 hwp).1 () d' () hx⟩
  | error e => exact ((wp_iff_exec.1 hwp).2 e d' () hx).elim

/-- A server that sends one byte at a time. -/
def byteReply (file : List UInt8) : (req : Rpc) → Unit → Option (req.Res × Unit)
  | .read _ off count, _ =>
      let data := (file.drop off.toNat).take (min 1 count.toNat)
      some (.ok ⟨data.length.toUInt32, file.length ≤ off.toNat + data.length, data⟩, ())
  | _, _ => none

theorem readServes_of_byteReply (fh : NfsFh) (file : List UInt8) (req : Rpc) (s : Unit)
    (res : req.Res)
    (s' : Unit) (h : byteReply file req s = some (res, s')) : readServes fh file req s res s' := by
  cases req with
  | read fh' off count =>
      cases h
      have hlength : ((file.drop off.toNat).take (min 1 count.toNat)).length ≤ 1 :=
        (List.length_take_le _ _).trans (Nat.min_le_left 1 _)
      refine fun _ ↦ ⟨_, rfl, ?_, fun hnil ↦ ?_, ?_, decide_eq_true_iff⟩
      · exact List.take_prefix_take_left (Nat.min_le_right 1 _)
      · rcases List.take_eq_nil_iff.1 hnil with hzero | hnone
        · rw [(Nat.min_eq_zero_iff.1 hzero).resolve_left Nat.one_ne_zero, List.take_zero]
        · rw [hnone, List.take_nil]
      · dsimp only
        rw [Nat.toUInt32, UInt32.toNat_ofNat']
        omega
  | _ => exact nomatch h

/-- Two bytes are read from the middle of a file. -/
theorem read_replies_bytes_middle : ∃ d p i d', d.ilookup 1 = some p ∧ d.heap p = some i ∧
    d.sb.rsize ≠ 0 ∧
    Prog.Exec (reliable (readServes i.fh [10, 20, 30, 40])) ((hsxFuseRead 3 1 2 1).run d) ()
      (.ok (), d') () ∧
    d'.replies = d.replies ++ [.buf [20, 30]] := by
  have hplay : (playAtRoot (networkAnswer (byteReply [10, 20, 30, 40])) (hsxFuseRead 3 1 2 1)
      ()).any (fun q ↦ q.1.sb.rsize != 0) = true := by decide +kernel
  obtain ⟨⟨d, p, i, ⟨out, d'⟩, s⟩, hplay, hrsize⟩ := (Option.any_eq_true _ _).1 hplay
  obtain ⟨hp, hi, heval⟩ := of_playAtRoot hplay
  have hx := Prog.exec_of_eval (reliable_of_answer (readServes_of_byteReply i.fh _)) heval
  obtain ⟨rfl, hreply⟩ := read_replies_bytes [10, 20, 30, 40] hp hi (bne_iff_ne.1 hrsize)
    (by decide) (by decide) hx
  exact ⟨d, p, i, d', hp, hi, bne_iff_ne.1 hrsize, hx, hreply⟩

/-! ## Writing -/

/-- The server of a file.  It stores a part of the data that comes with a `WRITE`, at least one
byte, and answers how much. -/
def writeServes (fh : NfsFh) :
    (req : Rpc) → List UInt8 → req.Res → List UInt8 → Prop
  | .write fh' off _ _ data, file, res, file' => fh' = fh → ∃ count, res = .ok count ∧
      count.toNat ≤ data.length ∧ (data ≠ [] → count ≠ 0) ∧
      file' = writeAt off.toNat (data.take count.toNat) file
  | _, file, _, file' => file' = file

/-- What a file holds once data has been written at an offset.  Without data, nothing is written. -/
def written (off : Nat) (data file : List UInt8) : List UInt8 :=
  if data = [] then file else writeAt off data file

theorem resizeTo_append {n : Nat} {l : List UInt8} (h : l.length = n) (l' : List UInt8) :
    resizeTo n (l ++ l') = l := by
  rw [resizeTo, List.take_left' h, List.length_append, h,
    Nat.sub_eq_zero_of_le (Nat.le_add_right ..), List.replicate_zero, List.append_nil]

/-- Data is written right behind other data. -/
theorem written_append (off : Nat) (a file : List UInt8) {b : List UInt8} (hb : b ≠ []) :
    writeAt (off + a.length) b (written off a file) = written off (a ++ b) file := by
  have hab : a ++ b ≠ [] := fun h ↦ hb (List.append_eq_nil_iff.1 h).2
  rw [written, written, if_neg hab]
  by_cases ha : a = []
  · rw [if_pos ha, ha]
    rfl
  · have hlength : (resizeTo off file ++ a).length = off + a.length := by
      rw [List.length_append, length_resizeTo]
    rw [if_neg ha, writeAt, writeAt, resizeTo_append hlength, ← hlength,
      List.drop_length_add_append, List.drop_drop, hlength, writeAt, List.length_append,
        ← Nat.add_assoc,
      List.append_assoc (resizeTo off file)]

section write

variable {d : Daemon} {p : Addr} {i : Inode} {file : List UInt8}

/-- **`hsi_nfs3_write`** returns how much the server has stored. -/
theorem wp_hsiNfs3Write (hi : d.heap p = some i) (rwOff : UInt64) (rwSize stable : UInt32)
    {data : List UInt8} (hdata : data ≠ []) :
    wp (reliable (writeServes i.fh)) (hsiNfs3Write p rwOff rwSize stable data)
      (fun r d' file' ↦ d.Undisturbed d' ∧ ∃ count, r = .ok count ∧ count.toNat ≤ data.length ∧
        count ≠ 0 ∧ file' = writeAt rwOff.toNat (data.take count.toNat) file)
      (fun _ _ _ ↦ False) d file := by
  unfold hsiNfs3Write sbClntp
  simp only [wp_bind, wp_get, wp_pure, wp_of_ret (getfh3_run hi)]
  refine wp_mono ?_ (fun _ _ _ h ↦ h) (wp_call_reliable _ _)
  rintro _ _ file' ⟨res, rfl, rfl, hserved⟩
  obtain ⟨count, rfl, hcount, hsome, hfile⟩ := hserved rfl
  exact ⟨⟨rfl, rfl, rfl⟩, count, rfl, hcount, hsome hdata, hfile⟩

/-- **The loop of `hsx_fuse_write`**: the first bytes are in the file, and every round adds some. -/
theorem wp_writeLoop (hi : d.heap p = some i) (hwsize : d.sb.wsize ≠ 0) {off : UInt64}
    {buf : List UInt8} (hsize : off.toNat + buf.length < 2 ^ 63) (stable : UInt32)
    {rounds cnt : Nat}
    (hcnt : cnt ≤ buf.length) (hrounds : buf.length - cnt < rounds) :
    wp (reliable (writeServes i.fh)) (writeLoop p buf off stable rounds cnt)
      (fun r d' file' ↦ d.Undisturbed d' ∧ r = .ok buf.length ∧ file' = written off.toNat buf file)
      (fun _ _ _ ↦ False) d (written off.toNat (buf.take cnt) file) := by
  -- every round leaves less to write
  induction rounds generalizing d cnt with
  | zero => exact absurd hrounds (Nat.not_lt_zero _)
  | succ rounds ih =>
      unfold writeLoop
      by_cases hmore : cnt < buf.length
      · have hwpos : 0 < d.sb.wsize.toNat := by
          refine Nat.pos_of_ne_zero fun h ↦ hwsize ?_
          exact UInt32.toNat_inj.1 h
        have hdata : (buf.drop cnt).take (min (buf.length - cnt) d.sb.wsize.toNat) ≠ [] := by
          refine List.ne_nil_of_length_pos ?_
          rw [List.length_take, List.length_drop]
          omega
        rw [if_pos hmore, wp_bind, wp_get, wp_bind]
        refine wp_mono ?_ (fun _ _ _ h ↦ h) (wp_hsiNfs3Write hi _ _ stable hdata)
        rintro _ d₁ _ ⟨hd₁, count, rfl, hcount, hne, rfl⟩
        have hpos : 0 < count.toNat := Nat.pos_of_ne_zero fun h ↦ hne (UInt32.toNat_inj.1 h)
        rw [List.length_take, List.length_drop] at hcount
        rw [List.take_take, Nat.min_eq_left (by omega)]
        have hpiece : (buf.drop cnt).take count.toNat ≠ [] := by
          refine List.ne_nil_of_length_pos ?_
          rw [List.length_take, List.length_drop]
          omega
        have hdone : (buf.take cnt).length = cnt := List.length_take_of_le hcnt
        have hfile : writeAt (off + cnt.toUInt64).toNat ((buf.drop cnt).take count.toNat)
            (written off.toNat (buf.take cnt) file) =
              written off.toNat (buf.take (cnt + count.toNat)) file := by
          have happend := written_append off.toNat (buf.take cnt) file hpiece
          rw [hdone, ← List.take_add] at happend
          rw [toNat_offset_add (by omega)]
          exact happend
        rw [hfile]
        refine wp_mono ?_ (fun _ _ _ h ↦ h) (ih (d := d₁) (hd₁.heap ▸ hi) (hd₁.sb ▸ hwsize) ?_ ?_)
        · exact fun _ d₂ _ h ↦ ⟨hd₁.trans h.1, h.2⟩
        all_goals omega
      · obtain rfl : cnt = buf.length := Nat.le_antisymm hcnt (Nat.le_of_not_lt hmore)
        rw [if_neg hmore, List.take_length]
        exact ⟨⟨rfl, rfl, rfl⟩, rfl, rfl⟩

end write

/-- The file holds the data at the offset, and is otherwise as it was.  What is not there reads as
zeros. -/
structure Overwritten (off : Nat) (data file file' : List UInt8) : Prop where
  inside : ∀ k < data.length, file'[off + k]? = data[k]?
  outside : ∀ k, k < off ∨ off + data.length ≤ k → file'.getD k 0 = file.getD k 0
  length : file'.length = if data = [] then file.length else max file.length (off + data.length)

/-- Before the offset, there is what was there, or a gap. -/
theorem getD_resizeTo {n k : Nat} (h : k < n) (bytes : List UInt8) :
    (resizeTo n bytes).getD k 0 = bytes.getD k 0 := by
  rw [resizeTo, List.getD_eq_getElem?_getD, List.getD_eq_getElem?_getD]
  by_cases hk : k < bytes.length
  · rw [List.getElem?_append_left, List.getElem?_take_of_lt h]
    rw [List.length_take]
    omega
  · rw [List.getElem?_append_right, List.getElem?_replicate, List.getElem?_eq_none (by omega)]
    · split <;> rfl
    · rw [List.length_take]
      omega

theorem overwritten_written (off : Nat) (data file : List UInt8) :
    Overwritten off data file (written off data file) := by
  unfold written
  by_cases hdata : data = []
  · subst hdata
    exact ⟨fun k hk ↦ absurd hk (Nat.not_lt_zero k), fun _ _ ↦ rfl, rfl⟩
  · rw [if_neg hdata]
    have hlength : (resizeTo off file).length = off := length_resizeTo off file
    refine ⟨fun k hk ↦ ?_, fun k hk ↦ ?_, ?_⟩
    · rw [writeAt, List.append_assoc, List.getElem?_append_right (by omega), hlength,
        Nat.add_sub_cancel_left, List.getElem?_append_left hk]
    · rcases hk with hk | hk
      · rw [writeAt, List.append_assoc, List.getD_append _ _ _ _ (by omega), getD_resizeTo hk]
      · have hboth : (resizeTo off file ++ data).length = off + data.length := by
          rw [List.length_append, hlength]
        rw [writeAt, List.getD_append_right _ _ _ _ (by omega), hboth, List.getD_eq_getElem?_getD,
          List.getElem?_drop, Nat.add_sub_cancel' hk, ← List.getD_eq_getElem?_getD]
    · rw [if_neg hdata, writeAt, List.length_append, List.length_append, hlength, List.length_drop]
      omega

/-- **A write stores the bytes of the kernel**, all of them, at the offset, and changes no other
byte, after at most as many rounds as there are bytes. -/
theorem write_stores_bytes (file : List UInt8) {d : Daemon} {ino : UInt64} {p : Addr} {i : Inode}
    (hfound : d.ilookup ino = some p) (hi : d.heap p = some i) (hwsize : d.sb.wsize ≠ 0)
    {buf : List UInt8} {off : UInt64} (hsize : off.toNat + buf.length < 2 ^ 63) (directIo : Bool)
    {rounds : Nat} (hrounds : buf.length < rounds) {out : Except Fault Unit} {d' : Daemon}
    {file' : List UInt8}
    (hx : Prog.Exec (reliable (writeServes i.fh)) ((hsxFuseWrite rounds ino buf off directIo).run d)
      file
      (out, d') file') :
    out = .ok () ∧ d'.replies = d.replies ++ [.write buf.length] ∧
      Overwritten off.toNat buf file file' := by
  have hwp : wp (reliable (writeServes i.fh)) (hsxFuseWrite rounds ino buf off directIo)
      (fun _ d' file' ↦ d'.replies = d.replies ++ [.write buf.length] ∧
        Overwritten off.toNat buf file file')
      (fun _ _ _ ↦ False) d file := by
    unfold hsxFuseWrite
    rw [wp_bind]
    refine wp_malloc_reliable ?_
    rw [if_pos rfl, wp_bind, wp_of_ret (hsfsIlookup_run hfound hi)]
    dsimp only
    rw [wp_bind]
    refine wp_mono ?_ (fun _ _ _ h ↦ h)
      (wp_writeLoop hi hwsize hsize _ (Nat.zero_le _) hrounds)
    rintro _ d₁ _ ⟨hd₁, rfl, rfl⟩
    refine ⟨?_, overwritten_written off.toNat buf file⟩
    change d₁.replies ++ [.write _] = _
    rw [hd₁.replies]
  cases out with
  | ok _ => exact ⟨rfl, (wp_iff_exec.1 hwp).1 () d' file' hx⟩
  | error e => exact ((wp_iff_exec.1 hwp).2 e d' file' hx).elim

/-- A server that stores one byte at a time. -/
def storeReply : (req : Rpc) → List UInt8 → Option (req.Res × List UInt8)
  | .write _ off _ _ data, file =>
      some (.ok (data.take 1).length.toUInt32, writeAt off.toNat (data.take 1) file)
  | _, _ => none

theorem writeServes_of_storeReply (fh : NfsFh) (req : Rpc) (file : List UInt8) (res : req.Res)
    (file' : List UInt8) (h : storeReply req file = some (res, file')) :
    writeServes fh req file res file' := by
  cases req with
  | write fh' off count stable data =>
      cases h
      cases data with
      | nil => exact fun _ ↦ ⟨_, rfl, Nat.le_refl 0, fun h ↦ absurd rfl h, rfl⟩
      | cons byte data =>
          have hone : (1 : UInt32) ≠ 0 := by decide
          exact fun _ ↦ ⟨_, rfl, Nat.succ_le_succ (Nat.zero_le _), fun _ ↦ hone, rfl⟩
  | _ => exact nomatch h

/-- Two bytes are written behind the end of a file. -/
theorem write_stores_bytes_behind : ∃ d p i d' file', d.ilookup 1 = some p ∧ d.heap p = some i ∧
    d.sb.wsize ≠ 0 ∧
    Prog.Exec (reliable (writeServes i.fh)) ((hsxFuseWrite 3 1 [7, 8] 2 false).run d) [10]
      (.ok (), d') file' ∧
    d'.replies = d.replies ++ [.write 2] ∧ Overwritten 2 [7, 8] [10] file' := by
  have hplay : (playAtRoot (networkAnswer storeReply) (hsxFuseWrite 3 1 [7, 8] 2 false) [10]).any
      (fun q ↦ q.1.sb.wsize != 0) = true := by decide +kernel
  obtain ⟨⟨d, p, i, ⟨out, d'⟩, file'⟩, hplay, hwsize⟩ := (Option.any_eq_true _ _).1 hplay
  obtain ⟨hp, hi, heval⟩ := of_playAtRoot hplay
  have hx := Prog.exec_of_eval (reliable_of_answer (writeServes_of_storeReply i.fh)) heval
  obtain ⟨rfl, hreply, hfile⟩ := write_stores_bytes [10] hp hi (bne_iff_ne.1 hwsize)
    (by decide) false (by decide) hx
  exact ⟨d, p, i, d', file', hp, hi, bne_iff_ne.1 hwsize, hx, hreply, hfile⟩

end Hsfs
