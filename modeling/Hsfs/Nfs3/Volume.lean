import Hsfs.Fuse.Transfer
import Hsfs.Interact.Trace

/-!
# What the server keeps

A volume holds the entries of directories, the bytes of files and the texts of symbolic links.
`Rpc.Done` is what a procedure does to it, and `volumeServes` is the server: it may refuse any
request, and then nothing changes, and it may write fewer bytes than it was sent.

A request whose reply is lost is sent again, and may so be executed more than once.  Still the
effect is that of one execution at most (`Served.trans`): a name can be made or taken away only
once, and what else there is writes the same thing again.  So the traces of an operation say what it
has done to the volume (`Carried.effect`).

The names `.` and `..` are not among the entries; the kernel does not ask for them.
-/

namespace Hsfs

open Interact Interact.Act

/-- What is on the server. -/
@[ext]
structure Volume where
  /-- The object that a name in a directory stands for. -/
  entry : NfsFh → Name → Option NfsFh
  /-- The bytes of a file. -/
  data : NfsFh → Option (List UInt8)
  /-- The text of a symbolic link. -/
  text : NfsFh → Option Name

namespace Volume

/-! ## Changes -/

/-- Let a name stand for an object, or for nothing. -/
def setEntry (s : Volume) (dir : NfsFh) (name : Name) (obj : Option NfsFh) : Volume :=
  { s with entry := Function.update s.entry dir (Function.update (s.entry dir) name obj) }

/-- Give an object these bytes and this text. -/
def setObject (s : Volume) (fh : NfsFh) (data : Option (List UInt8)) (text : Option Name) :
    Volume :=
  { s with data := Function.update s.data fh data, text := Function.update s.text fh text }

/-- Change the bytes of a file. -/
def modify (s : Volume) (fh : NfsFh) (f : List UInt8 → List UInt8) : Volume :=
  { s with data := Function.update s.data fh ((s.data fh).map f) }

/-- Give a file a new size, if there is one. -/
def resize (s : Volume) (fh : NfsFh) : Option UInt64 → Volume
  | none => s
  | some n => s.modify fh (resizeTo n.toNat)

/-- There is no such object. -/
structure Unused (s : Volume) (fh : NfsFh) : Prop where
  data : s.data fh = none
  text : s.text fh = none
  empty : ∀ name, s.entry fh name = none
  unnamed : ∀ dir name, s.entry dir name ≠ some fh

/-- A name is given to a new object. -/
def Adds (s : Volume) (dir : NfsFh) (name : Name) (data : Option (List UInt8)) (text : Option Name)
    (s' : Volume) : Prop :=
  s.entry dir name = none ∧
    ∃ fh, s.Unused fh ∧ fh ≠ dir ∧ s' = (s.setObject fh data text).setEntry dir name (some fh)

/-- The object that a name stands for may be gone if it has no other name. -/
def Drops (s : Volume) (dir : NfsFh) (name : Name) (s' : Volume) : Prop :=
  s' = s ∨ ∃ fh, s.entry dir name = some fh ∧
    (∀ dir' name', s.entry dir' name' = some fh → dir' = dir ∧ name' = name) ∧
    s' = s.setObject fh none none

/-- A name is taken away. -/
def Removes (s : Volume) (dir : NfsFh) (name : Name) (s' : Volume) : Prop :=
  s.entry dir name ≠ none ∧ ∃ s₁, s.Drops dir name s₁ ∧ s' = s₁.setEntry dir name none

/-- An object gets another name, unless it has that name already. -/
def Renames (s : Volume) (dir : NfsFh) (name : Name) (toDir : NfsFh) (toName : Name)
    (s' : Volume) : Prop :=
  ∃ fh, s.entry dir name = some fh ∧
    (s.entry toDir toName = some fh ∧ s' = s ∨
      s.entry toDir toName ≠ some fh ∧ ∃ s₁, s.Drops toDir toName s₁ ∧
        s' = (s₁.setEntry dir name none).setEntry toDir toName (some fh))

@[simp] theorem setEntry_entry (s : Volume) (dir : NfsFh) (name : Name) (obj : Option NfsFh)
    (dir' : NfsFh) (name' : Name) : (s.setEntry dir name obj).entry dir' name' =
      if dir' = dir ∧ name' = name then obj else s.entry dir' name' := by
  by_cases hdir : dir' = dir
  · subst hdir
    by_cases hname : name' = name <;> simp [setEntry, hname]
  · simp [setEntry, hdir]

@[simp] theorem resize_entry (s : Volume) (fh : NfsFh) (size : Option UInt64) :
    (s.resize fh size).entry = s.entry := by
  cases size <;> rfl

theorem modify_data (s : Volume) (fh : NfsFh) (f : List UInt8 → List UInt8) :
    (s.modify fh f).data fh = (s.data fh).map f := Function.update_self ..

@[simp] theorem modify_modify (s : Volume) (fh : NfsFh) (f g : List UInt8 → List UInt8) :
    (s.modify fh f).modify fh g = s.modify fh fun bytes ↦ g (f bytes) := by
  simp [modify, Option.map_map, Function.comp_def]

@[simp] theorem modify_id (s : Volume) (fh : NfsFh) : (s.modify fh fun bytes ↦ bytes) = s := by
  simp [modify]

/-! ## What cannot be done twice -/

theorem Drops.entry_eq {s s' : Volume} {dir : NfsFh} {name : Name} (h : s.Drops dir name s') :
    s'.entry = s.entry := by
  rcases h with rfl | ⟨fh, -, -, rfl⟩
  · rfl
  · rfl

/-- The name stands for something now. -/
theorem Adds.entry_ne_none {s s' : Volume} {dir : NfsFh} {name : Name} {data : Option (List UInt8)}
    {text : Option Name} (h : s.Adds dir name data text s') : s'.entry dir name ≠ none := by
  obtain ⟨-, fh, -, -, rfl⟩ := h
  simp

/-- The object that the name stands for has the bytes. -/
theorem Adds.data_eq {s s' : Volume} {dir fh : NfsFh} {name : Name} {data : Option (List UInt8)}
    {text : Option Name} (h : s.Adds dir name data text s') (hfh : s'.entry dir name = some fh) :
    s'.data fh = data := by
  obtain ⟨-, new, -, -, rfl⟩ := h
  obtain rfl : new = fh := by simpa using hfh
  exact Function.update_self ..

/-- The name stands for nothing now. -/
theorem Removes.entry_eq_none {s s' : Volume} {dir : NfsFh} {name : Name}
    (h : s.Removes dir name s') : s'.entry dir name = none := by
  obtain ⟨-, s₁, -, rfl⟩ := h
  simp

/-- The object has its new name, and if the old one is another, it stands for nothing now. -/
theorem Renames.again {s s' s'' : Volume} {dir toDir : NfsFh} {name toName : Name}
    (h : s.Renames dir name toDir toName s') (h' : s'.Renames dir name toDir toName s'') :
    s.Renames dir name toDir toName s'' := by
  obtain ⟨fh, hfh, ⟨-, rfl⟩ | ⟨hne, s₁, hdrops, rfl⟩⟩ := h
  · exact h'
  · have hother : ¬(dir = toDir ∧ name = toName) := by
      rintro ⟨rfl, rfl⟩
      exact hne hfh
    obtain ⟨fh', hfh', -⟩ := h'
    simp [hother] at hfh'

theorem resizeTo_resizeTo (n : Nat) (bytes : List UInt8) :
    resizeTo n (resizeTo n bytes) = resizeTo n bytes := by
  have h := resizeTo_append (length_resizeTo n bytes) []
  rwa [List.append_nil] at h

theorem resize_resize (s : Volume) (fh : NfsFh) (size : Option UInt64) :
    (s.resize fh size).resize fh size = s.resize fh size := by
  cases size with
  | none => rfl
  | some n => simp [resize, resizeTo_resizeTo]

/-- A new file has the size it was made with. -/
theorem resize_eq_self {s : Volume} {fh : NfsFh} {size : Option UInt64}
    (h : s.data fh = some (resizeTo (size.elim 0 UInt64.toNat) [])) : s.resize fh size = s := by
  cases size with
  | none => rfl
  | some n =>
      have hsame : (s.data fh).map (resizeTo n.toNat) = s.data fh := by
        rw [h]
        exact congrArg some (resizeTo_resizeTo n.toNat [])
      rw [resize, modify, hsame, Function.update_eq_self]

end Volume

/-! ## Procedures -/

/-- A new file can be an old one, if the client does not insist. -/
def Createhow3.allowsOld : Createhow3 → Bool
  | .guarded _ => false
  | _ => true

/-- What a procedure does. -/
def Rpc.Done : Rpc → Volume → Volume → Prop
  | .setattr fh attrs, s, s' => s' = s.resize fh attrs.size
  | .write fh off _ _ data, s, s' => (data ≠ [] → s.data fh ≠ none) ∧
      s' = s.modify fh (written off.toNat data)
  | .create dir name how, s, s' =>
      s.Adds dir name (some (resizeTo (how.size.elim 0 UInt64.toNat) [])) none s' ∨
        how.allowsOld = true ∧ ∃ fh, s.entry dir name = some fh ∧ s' = s.resize fh how.size
  | .mkdir dir name _, s, s' => s.Adds dir name none none s'
  | .symlink dir name _ text, s, s' => s.Adds dir name none (some text) s'
  | .mknod dir name _, s, s' => s.Adds dir name none none s'
  | .remove dir name, s, s' => s.Removes dir name s'
  | .rmdir dir name, s, s' => s.Removes dir name s'
  | .rename dir name toDir toName, s, s' => s.Renames dir name toDir toName s'
  | .link fh dir name, s, s' => s.entry dir name = none ∧ s' = s.setEntry dir name (some fh)
  | _, s, s' => s' = s

/-- The procedure with the first bytes of its data only. -/
def Rpc.part (n : Nat) : Rpc → Rpc
  | .write fh off count stable data => .write fh off count stable (data.take n)
  | req => req

/-- What the server does with a request. -/
def volumeServes : (req : Rpc) → Volume → req.Res → Volume → Prop
  | .lookup dir name, s, .ok res, s' => s' = s ∧ s.entry dir name = some res.object
  | .readlink fh, s, .ok text, s' => s' = s ∧ s.text fh = some text
  | .read fh off count, s, .ok res, s' => s' = s ∧ ∃ bytes, s.data fh = some bytes ∧
      res.data <+: (bytes.drop off.toNat).take count.toNat ∧ res.count.toNat = res.data.length ∧
      (res.eof = true → bytes.length ≤ off.toNat + res.data.length)
  | .write fh off count stable data, s, .ok n, s' => n.toNat ≤ data.length ∧
      (Rpc.write fh off count stable (data.take n.toNat)).Done s s'
  | .create dir name how, s, .ok res, s' => (Rpc.create dir name how).Done s s' ∧
      ∀ obj ∈ res.obj, s'.entry dir name = some obj
  | .mkdir dir name attrs, s, .ok res, s' => (Rpc.mkdir dir name attrs).Done s s' ∧
      ∀ obj ∈ res.obj, s'.entry dir name = some obj
  | .symlink dir name attrs text, s, .ok res, s' => (Rpc.symlink dir name attrs text).Done s s' ∧
      ∀ obj ∈ res.obj, s'.entry dir name = some obj
  | .mknod dir name what, s, .ok res, s' => (Rpc.mknod dir name what).Done s s' ∧
      ∀ obj ∈ res.obj, s'.entry dir name = some obj
  | .setattr fh attrs, s, .ok _, s' => (Rpc.setattr fh attrs).Done s s'
  | .remove dir name, s, .ok _, s' => (Rpc.remove dir name).Done s s'
  | .rmdir dir name, s, .ok _, s' => (Rpc.rmdir dir name).Done s s'
  | .rename dir name toDir toName, s, .ok _, s' => (Rpc.rename dir name toDir toName).Done s s'
  | .link fh dir name, s, .ok _, s' => (Rpc.link fh dir name).Done s s'
  | _, s, _, s' => s' = s

/-! ## Once more -/

section written

variable {off : Nat}

/-- What has been written is written over. -/
theorem writeAt_writeAt (a b bytes : List UInt8) :
    writeAt off a (writeAt off b bytes) = writeAt off (a ++ b.drop a.length) bytes := by
  have hb : (resizeTo off bytes ++ b).length = off + b.length := by
    rw [List.length_append, length_resizeTo]
  have hrest : (resizeTo off bytes ++ b ++ bytes.drop (off + b.length)).drop (off + a.length) =
      b.drop a.length ++ bytes.drop (off + (a ++ b.drop a.length).length) := by
    rw [List.append_assoc, ← List.drop_drop, List.drop_left' (length_resizeTo off bytes),
      List.drop_append, List.drop_drop, List.length_append, List.length_drop]
    congr 2
    omega
  rw [writeAt, writeAt, hrest, List.append_assoc (resizeTo off bytes) b, resizeTo_append
    (length_resizeTo off bytes), writeAt]
  simp only [List.append_assoc]

/-- The longer one of two beginnings. -/
theorem take_append_drop_take (m n : Nat) (data : List UInt8) :
    data.take n ++ (data.take m).drop (data.take n).length = data.take (max m n) := by
  rw [List.length_take]
  rcases Nat.le_total m n with hle | hle
  · have hnil : (data.take m).drop (min n data.length) = [] := by
      refine List.drop_eq_nil_of_le ?_
      rw [List.length_take]
      omega
    rw [Nat.max_eq_right hle, hnil, List.append_nil]
  · have htake : data.take n = (data.take m).take (min n data.length) := by
      rw [List.take_take, Nat.min_eq_left (by omega), ← List.take_eq_take_min]
    rw [Nat.max_eq_left hle, htake, List.take_append_drop]

/-- Data is written right behind other data, if there is any. -/
theorem written_written (off : Nat) (a b bytes : List UInt8) :
    written (off + a.length) b (written off a bytes) = written off (a ++ b) bytes := by
  by_cases hb : b = []
  · rw [hb, List.append_nil]
    rfl
  · rw [← written_append off a bytes hb]
    exact if_neg hb

/-- The beginning of data is written over a beginning of the same data. -/
theorem written_take_written_take (m n : Nat) (data bytes : List UInt8) :
    written off (data.take n) (written off (data.take m) bytes) =
      written off (data.take (max m n)) bytes := by
  rw [← take_append_drop_take m n data]
  by_cases hm : data.take m = []
  · rw [hm, List.drop_nil, List.append_nil]
    rfl
  · by_cases hn : data.take n = []
    · rw [hn]
      rfl
    · have hboth : data.take n ++ (data.take m).drop (data.take n).length ≠ [] :=
        fun h ↦ hn (List.append_eq_nil_iff.1 h).1
      simp only [written, if_neg hm, if_neg hn, if_neg hboth]
      exact writeAt_writeAt _ _ _

/-- A piece of data is written over a beginning of the same data that reaches up to it. -/
theorem written_piece {cnt m : Nat} (hle : cnt ≤ m) {data : List UInt8} (hcnt : cnt ≤ data.length)
    (k : Nat) (bytes : List UInt8) :
    written (off + cnt) ((data.drop cnt).take k) (written off (data.take m) bytes) =
      written off (data.take (max m (cnt + k))) bytes := by
  have hlength : (data.take cnt).length = cnt := List.length_take_of_le hcnt
  -- what is there, cut where the piece begins
  have hsplit (n : Nat) : written off (data.take (cnt + n)) bytes =
      written (off + cnt) ((data.drop cnt).take n) (written off (data.take cnt) bytes) := by
    have h := written_written off (data.take cnt) ((data.drop cnt).take n) bytes
    rw [hlength, ← List.take_add] at h
    exact h.symm
  have hmax : max m (cnt + k) = cnt + max (m - cnt) k := by omega
  rw [hmax, hsplit, ← written_take_written_take, ← hsplit, Nat.add_sub_cancel' hle]

end written

/-- A request has been executed once, or not at all.  Of data that is to be written, some may have
been written. -/
def Served (req : Rpc) (s s' : Volume) : Prop := s' = s ∨ ∃ n, (req.part n).Done s s'

theorem Served.refl (req : Rpc) (s : Volume) : Served req s s := .inl rfl

/-- **A request that is executed twice has the effect of one execution.** -/
theorem Rpc.Done.again {req : Rpc} {m n : Nat} {s s' s'' : Volume} (h : (req.part m).Done s s')
    (h' : (req.part n).Done s' s'') : ∃ k, (req.part k).Done s s'' := by
  cases req with
  | setattr fh attrs =>
      obtain rfl : s' = s.resize fh attrs.size := h
      exact ⟨0, h'.trans (s.resize_resize fh attrs.size)⟩
  | write fh off count stable data =>
      obtain ⟨hthere, rfl⟩ := h
      obtain ⟨hthere', rfl⟩ := h'
      refine ⟨max m n, fun hsome hnone ↦ ?_, ?_⟩
      · -- the longer one of the two has found the file
        rcases Nat.le_total m n with hle | hle
        · rw [Nat.max_eq_right hle] at hsome
          exact hthere' hsome (by rw [Volume.modify_data, hnone]; rfl)
        · rw [Nat.max_eq_left hle] at hsome
          exact hthere hsome hnone
      · rw [Volume.modify_modify]
        exact congrArg (s.modify fh) (funext (written_take_written_take m n data))
  | create dir name how =>
      rcases h with hadds | ⟨hold, fh, hfh, rfl⟩
      · rcases h' with hadds' | ⟨hold, fh', hfh', rfl⟩
        · exact absurd hadds'.1 hadds.entry_ne_none
        · -- the file that has just been made is found
          rw [Volume.resize_eq_self (hadds.data_eq hfh')]
          exact ⟨0, .inl hadds⟩
      · rcases h' with hadds' | ⟨-, fh', hfh', rfl⟩
        · exact nomatch hfh.symm.trans ((congrFun₂ (s.resize_entry fh how.size) dir name).symm.trans
            hadds'.1)
        · rw [Volume.resize_entry, hfh] at hfh'
          obtain rfl := Option.some.inj hfh'
          exact ⟨0, .inr ⟨hold, fh, hfh, s.resize_resize fh how.size⟩⟩
  | mkdir dir name attrs => exact absurd (Volume.Adds.entry_ne_none h) (not_not_intro h'.1)
  | symlink dir name attrs text => exact absurd (Volume.Adds.entry_ne_none h) (not_not_intro h'.1)
  | mknod dir name what => exact absurd (Volume.Adds.entry_ne_none h) (not_not_intro h'.1)
  | remove dir name => exact absurd (Volume.Removes.entry_eq_none h) h'.1
  | rmdir dir name => exact absurd (Volume.Removes.entry_eq_none h) h'.1
  | rename dir name toDir toName => exact ⟨0, Volume.Renames.again h h'⟩
  | link fh dir name =>
      obtain ⟨-, rfl⟩ := h
      exact absurd h'.1 (by simp)
  | _ =>
      obtain rfl : s' = s := h
      exact ⟨0, h'⟩

/-- After an execution, more attempts change nothing. -/
theorem Rpc.Done.served {req : Rpc} {n : Nat} {s s' s'' : Volume} (h : (req.part n).Done s s')
    (h' : Served req s' s'') : ∃ k, (req.part k).Done s s'' := by
  rcases h' with rfl | ⟨m, hm⟩
  · exact ⟨n, h⟩
  · exact h.again hm

theorem Served.done {req : Rpc} {n : Nat} {s s' s'' : Volume} (h : Served req s s')
    (h' : (req.part n).Done s' s'') : ∃ k, (req.part k).Done s s'' := by
  rcases h with rfl | ⟨m, hm⟩
  · exact ⟨n, h'⟩
  · exact hm.again h'

theorem Served.trans {req : Rpc} {s s' s'' : Volume} (h : Served req s s')
    (h' : Served req s' s'') : Served req s s'' := by
  rcases h with rfl | ⟨n, hn⟩
  · exact h'
  · exact .inr (hn.served h')

/-- A server that has answered a request has served it. -/
theorem Served.of_serves {req : Rpc} {s s' : Volume} {res : req.Res}
    (h : volumeServes req s res s') : Served req s s' := by
  cases req with
  | write fh off count stable data =>
      cases res with
      | ok n => exact .inr ⟨n.toNat, h.2⟩
      | fail status => exact .inl h
  | setattr fh attrs | remove dir name | rmdir dir name | rename dir name toDir toName
  | link fh dir name =>
      cases res with
      | ok res => exact .inr ⟨0, h⟩
      | fail status => exact .inl h
  | create dir name how | mkdir dir name attrs | symlink dir name attrs text
  | mknod dir name what =>
      cases res with
      | ok res => exact .inr ⟨0, h.1⟩
      | fail status => exact .inl h
  | lookup dir name | readlink fh | read fh off count =>
      cases res with
      | ok res => exact .inl h.1
      | fail status => exact .inl h
  | _ => exact .inl h

/-! ## What the traces say -/

/-- The procedure changes nothing on a volume. -/
def Rpc.Harmless (req : Rpc) : Prop := ∀ s res s', volumeServes req s res s' → s' = s

theorem Rpc.harmless_of_part {req : Rpc} (h : ∀ n s s', (req.part n).Done s s' → s' = s) :
    req.Harmless := by
  intro s res s' hserves
  rcases Served.of_serves hserves with rfl | ⟨n, hn⟩
  · rfl
  · exact h n s s' hn

/-- The request, if the reply says that it has been executed. -/
def doneBy : (req : Rpc) → req.Res → Option Rpc
  | .setattr fh attrs, .ok _ => some (.setattr fh attrs)
  | .create dir name how, .ok _ => some (.create dir name how)
  | .mkdir dir name attrs, .ok _ => some (.mkdir dir name attrs)
  | .symlink dir name attrs text, .ok _ => some (.symlink dir name attrs text)
  | .mknod dir name what, .ok _ => some (.mknod dir name what)
  | .remove dir name, .ok _ => some (.remove dir name)
  | .rmdir dir name, .ok _ => some (.rmdir dir name)
  | .rename dir name toDir toName, .ok _ => some (.rename dir name toDir toName)
  | .link fh dir name, .ok _ => some (.link fh dir name)
  | _, _ => none

/-- The requests that have been executed, as the replies say. -/
def executed (es : List Event) : List Rpc := picked doneBy es

/-- A request that has been executed. -/
theorem done_of_doneBy {req req' : Rpc} {res : req.Res} {s s' : Volume}
    (h : doneBy req res = some req') (hserves : volumeServes req s res s') :
    req' = req ∧ ∃ n, (req.part n).Done s s' := by
  cases req with
  | setattr fh attrs | remove dir name | rmdir dir name | rename dir name toDir toName
  | link fh dir name =>
      cases res with
      | ok res => exact ⟨(Option.some.inj h).symm, 0, hserves⟩
      | fail status => exact nomatch h
  | create dir name how | mkdir dir name attrs | symlink dir name attrs text
  | mknod dir name what =>
      cases res with
      | ok res => exact ⟨(Option.some.inj h).symm, 0, hserves.1⟩
      | fail status => exact nomatch h
  | _ => exact nomatch h

/-- The events of something that carries out a request, and perhaps reports success: beside the
attempts at the request there are only harmless ones, and success is reported only if the server
has said so. -/
structure Carried (req : Rpc) (es : List Event) (reported : Prop) : Prop where
  asks : ∀ req' ∈ asked es, req' = req ∨ req'.Harmless
  done : reported → req ∈ executed es

/-- Harmless requests follow. -/
theorem Carried.append {req : Rpc} {es es' : List Event} {reported reported' : Prop}
    (h : Carried req es reported) (hes' : ∀ req' ∈ asked es', req'.Harmless)
    (himp : reported' → reported) : Carried req (es ++ es') reported' where
  asks := by
    intro req' hreq'
    rw [asked_append] at hreq'
    exact (List.mem_append.1 hreq').elim (h.asks req') fun hmem ↦ .inr (hes' req' hmem)
  done := by
    intro hreported
    rw [executed, picked_append]
    exact List.mem_append_left _ (h.done (himp hreported))

/-- What one event does. -/
theorem served_of_network {req : Rpc} {e : Event} (hask : ∀ req' ∈ asked [e], req' = req ∨
    req'.Harmless) {s s' : Volume} (hS : network volumeServes e.1 s e.2 s') :
    Served req s s' ∧ (req ∈ executed [e] → ∃ n, (req.part n).Done s s') := by
  obtain ⟨c, r⟩ := e
  cases c with
  | clntCall clnt req' =>
      have hreq := hask req' (.head _)
      have hone {res : req'.Res} (hserves : volumeServes req' s res s') : Served req s s' := by
        rcases hreq with rfl | hharmless
        · exact .of_serves hserves
        · exact .inl (hharmless s res s' hserves)
      cases r with
      | done res =>
          refine ⟨hone hS, fun hmem ↦ ?_⟩
          have hdone : doneBy req' res = some req := by
            obtain ⟨e, he, hpick⟩ := List.mem_filterMap.1 hmem
            obtain rfl := List.mem_singleton.1 he
            exact hpick
          obtain ⟨rfl, hn⟩ := done_of_doneBy hdone hS
          exact hn
      | failed err =>
          refine ⟨?_, fun hmem ↦ absurd hmem List.not_mem_nil⟩
          rcases hS with rfl | ⟨res, hserves⟩
          · exact .refl req s'
          · exact hone hserves
  | openclnt acl | ping clnt | mallocInode fileid fh avoid | malloc =>
      exact ⟨.inl hS, fun hmem ↦ absurd hmem List.not_mem_nil⟩

/-- **What is carried out has been executed at most once, and just once if success is reported.** -/
theorem Carried.effect {req : Rpc} {es : List Event} {reported : Prop}
    (h : Carried req es reported) {s s' : Volume} (hsteps : (network volumeServes).Steps s es s') :
    Served req s s' ∧ (reported → ∃ n, (req.part n).Done s s') := by
  suffices hall : Served req s s' ∧ (req ∈ executed es → ∃ n, (req.part n).Done s s') from
    ⟨hall.1, fun hreported ↦ hall.2 (h.done hreported)⟩
  have hasks := h.asks
  clear h
  induction hsteps with
  | nil s => exact ⟨.refl req s, fun hmem ↦ absurd hmem List.not_mem_nil⟩
  | @cons c r s s₁ s' es hS _ ih =>
      have hsplit : (⟨c, r⟩ :: es : List Event) = [⟨c, r⟩] ++ es := rfl
      rw [hsplit, asked_append] at hasks
      obtain ⟨hfirst, hdone₁⟩ := served_of_network
        (fun req' h ↦ hasks req' (List.mem_append_left _ h)) hS
      obtain ⟨hrest, hdone₂⟩ := ih fun req' h ↦ hasks req' (List.mem_append_right _ h)
      refine ⟨hfirst.trans hrest, fun hmem ↦ ?_⟩
      rw [hsplit, executed, picked_append] at hmem
      rcases List.mem_append.1 hmem with hmem | hmem
      · obtain ⟨n, hn⟩ := hdone₁ hmem
        exact hn.served hrest
      · obtain ⟨n, hn⟩ := hdone₂ hmem
        exact hfirst.done hn

end Hsfs
