import Hsfs.Nfs3.Acl

/-!
# Lists as values of an attribute

The value of an attribute that holds an access control list is a version and entries of eight bytes
each. `AclXattrEntry` is such an entry as it stands there, and `aclXattr` the value for a list of
them.

`posix_acl_from_xattr` takes just these values, if the tags are known, and `posix_acl_to_xattr`
writes them again, up to the ids that mean nothing (`acl_xattr_codec`).
-/

namespace Hsfs

/-! ## Words in memory -/

theorem toNat_le16 (a b : UInt8) : (le16 a b).toNat = b.toNat * 2 ^ 8 + a.toNat := by
  have ha := a.toNat_lt
  have hb := b.toNat_lt
  rw [le16, UInt16.toNat_or, UInt16.toNat_shiftLeft, UInt8.toNat_toUInt16, UInt8.toNat_toUInt16,
    Nat.or_comm]
  change (b.toNat <<< 8) % 2 ^ 16 ||| a.toNat = _
  rw [Nat.mod_eq_of_lt (by rw [Nat.shiftLeft_eq]; omega), ← Nat.shiftLeft_add_eq_or_of_lt ha,
    Nat.shiftLeft_eq]

theorem toNat_le32 (a b c d : UInt8) : (le32 a b c d).toNat =
    d.toNat * 2 ^ 24 + (c.toNat * 2 ^ 16 + (b.toNat * 2 ^ 8 + a.toNat)) := by
  have ha := a.toNat_lt
  have hb := b.toNat_lt
  have hc := c.toNat_lt
  have hd := d.toNat_lt
  have hlow {k x y : Nat} (hk : k ≤ 24) (hx : x < 2 ^ 8) (hy : y < 2 ^ k) :
      y ||| (x <<< k) % 2 ^ 32 = x * 2 ^ k + y := by
    have hfits : x * 2 ^ k < 2 ^ 32 := by
      calc x * 2 ^ k < 2 ^ 8 * 2 ^ k := Nat.mul_lt_mul_of_pos_right hx (Nat.two_pow_pos k)
        _ ≤ 2 ^ 8 * 2 ^ 24 := Nat.mul_le_mul_left _ (Nat.pow_le_pow_right (by decide) hk)
        _ = 2 ^ 32 := by decide
    rw [Nat.shiftLeft_eq, Nat.mod_eq_of_lt hfits, Nat.or_comm, ← Nat.shiftLeft_eq,
      ← Nat.shiftLeft_add_eq_or_of_lt hy]
  rw [le32, UInt32.toNat_or, UInt32.toNat_or, UInt32.toNat_or, UInt32.toNat_shiftLeft,
    UInt32.toNat_shiftLeft, UInt32.toNat_shiftLeft]
  change a.toNat ||| (b.toNat <<< 8) % 2 ^ 32 ||| (c.toNat <<< 16) % 2 ^ 32 |||
    (d.toNat <<< 24) % 2 ^ 32 = _
  rw [hlow (by decide) hb ha, hlow (by decide) hc (by omega), hlow (by decide) hd (by omega)]

theorem toNat_byte16 (x : UInt16) : (x >>> 8).toUInt8.toNat = x.toNat / 2 ^ 8 % 2 ^ 8 := by
  rw [UInt16.toNat_toUInt8, UInt16.toNat_shiftRight]
  exact congrArg (· % 2 ^ 8) (Nat.shiftRight_eq_div_pow x.toNat 8)

theorem toNat_byte32 (x : UInt32) {k : UInt32} (hk : k.toNat < 32) :
    (x >>> k).toUInt8.toNat = x.toNat / 2 ^ k.toNat % 2 ^ 8 := by
  rw [UInt32.toNat_toUInt8, UInt32.toNat_shiftRight, Nat.mod_eq_of_lt hk, Nat.shiftRight_eq_div_pow]

/-- The bytes of a word that has been read from two bytes are these bytes. -/
@[simp]
theorem bytes16_le16 (a b : UInt8) : bytes16 (le16 a b) = [a, b] := by
  have ha := a.toNat_lt
  have hb := b.toNat_lt
  unfold bytes16
  congr 2
  · rw [← UInt8.toNat_inj, UInt16.toNat_toUInt8, toNat_le16]
    omega
  · rw [← UInt8.toNat_inj, toNat_byte16, toNat_le16]
    omega

/-- A word is what is read from its bytes. -/
@[simp]
theorem le16_bytes16 (x : UInt16) : le16 x.toUInt8 (x >>> 8).toUInt8 = x := by
  have hx := x.toNat_lt
  rw [← UInt16.toNat_inj, toNat_le16, toNat_byte16, UInt16.toNat_toUInt8]
  omega

@[simp]
theorem bytes32_le32 (a b c d : UInt8) : bytes32 (le32 a b c d) = [a, b, c, d] := by
  have ha := a.toNat_lt
  have hb := b.toNat_lt
  have hc := c.toNat_lt
  have hd := d.toNat_lt
  unfold bytes32
  congr 4
  · rw [← UInt8.toNat_inj, UInt32.toNat_toUInt8, toNat_le32]
    omega
  · rw [← UInt8.toNat_inj, toNat_byte32 _ (by decide), toNat_le32]
    change _ / 2 ^ 8 % _ = _
    omega
  · rw [← UInt8.toNat_inj, toNat_byte32 _ (by decide), toNat_le32]
    change _ / 2 ^ 16 % _ = _
    omega
  · rw [← UInt8.toNat_inj, toNat_byte32 _ (by decide), toNat_le32]
    change _ / 2 ^ 24 % _ = _
    omega

@[simp]
theorem le32_bytes32 (x : UInt32) :
    le32 x.toUInt8 (x >>> 8).toUInt8 (x >>> 16).toUInt8 (x >>> 24).toUInt8 = x := by
  have hx := x.toNat_lt
  rw [← UInt32.toNat_inj, toNat_le32, toNat_byte32 _ (by decide), toNat_byte32 _ (by decide),
    toNat_byte32 _ (by decide), UInt32.toNat_toUInt8]
  change _ / 2 ^ 24 % _ * _ + (_ / 2 ^ 16 % _ * _ + (_ / 2 ^ 8 % _ * _ + _)) = _
  omega

/-! ## The format -/

/-- `posix_acl_xattr_entry`. -/
structure AclXattrEntry where
  eTag : UInt16
  ePerm : UInt16
  eId : UInt32
  deriving DecidableEq

/-- An entry in memory. -/
def AclXattrEntry.bytes (e : AclXattrEntry) : List UInt8 :=
  bytes16 e.eTag ++ bytes16 e.ePerm ++ bytes32 e.eId

/-- A version and entries. -/
def aclXattr (entries : List AclXattrEntry) : List UInt8 :=
  bytes32 posixAclXattrVersion ++ entries.flatMap AclXattrEntry.bytes

/-- The kinds of entries whose id means nothing. -/
def AclTag.WithoutId (tag : Int16) : Prop :=
  tag ∈ [AclTag.userObj, AclTag.groupObj, AclTag.mask, AclTag.other]

/-- The kinds of entries. -/
def AclTag.Known (tag : Int16) : Prop :=
  tag ∈ [AclTag.userObj, AclTag.user, AclTag.groupObj, AclTag.group, AclTag.mask, AclTag.other]

instance AclTag.decidableWithoutId (tag : Int16) : Decidable (AclTag.WithoutId tag) :=
  inferInstanceAs (Decidable (tag ∈ [AclTag.userObj, AclTag.groupObj, AclTag.mask, AclTag.other]))

instance AclTag.decidableKnown (tag : Int16) : Decidable (AclTag.Known tag) :=
  inferInstanceAs (Decidable (tag ∈ [AclTag.userObj, AclTag.user, AclTag.groupObj, AclTag.group,
    AclTag.mask, AclTag.other]))

/-- An entry with an id that means something, or the undefined one. -/
def AclXattrEntry.normal (e : AclXattrEntry) : AclXattrEntry :=
  if AclTag.WithoutId e.eTag.toInt16 then { e with eId := aclUndefinedId } else e

/-- An entry of a list in memory that `posix_acl_from_xattr` can have made. -/
structure PosixAclEntry.Proper (e : PosixAclEntry) : Prop where
  known : AclTag.Known e.eTag
  undefined : AclTag.WithoutId e.eTag → e.eId = aclUndefinedId

/-- The entry in memory of an entry. -/
def AclXattrEntry.decoded (e : AclXattrEntry) : PosixAclEntry :=
  ⟨e.eTag.toInt16, e.ePerm, e.normal.eId⟩

/-- The entry that is written for an entry in memory. -/
def PosixAclEntry.encoded (e : PosixAclEntry) : AclXattrEntry := ⟨e.eTag.toUInt16, e.ePerm, e.eId⟩

/-! ## Entries -/

/-- One round of the loop takes an entry if its tag is known. -/
theorem posixAclEntryOf_eq (e : AclXattrEntry) : posixAclEntryOf e.eTag e.ePerm e.eId =
    if AclTag.Known e.eTag.toInt16 then some e.decoded else none := by
  have hmem : AclTag.Known e.eTag.toInt16 ↔ AclTag.WithoutId e.eTag.toInt16 ∨
      e.eTag.toInt16 = AclTag.user ∨ e.eTag.toInt16 = AclTag.group := by
    simp only [AclTag.Known, AclTag.WithoutId, List.mem_cons, List.not_mem_nil, or_false]
    tauto
  have hwithout : AclTag.WithoutId e.eTag.toInt16 ↔ e.eTag.toInt16 = AclTag.userObj ∨
      e.eTag.toInt16 = AclTag.groupObj ∨ e.eTag.toInt16 = AclTag.mask ∨
      e.eTag.toInt16 = AclTag.other := by
    simp only [AclTag.WithoutId, List.mem_cons, List.not_mem_nil, or_false]
  unfold posixAclEntryOf AclXattrEntry.decoded AclXattrEntry.normal
  dsimp only
  split
  · next h =>
      have h := hwithout.2 h
      rw [if_pos (hmem.2 (.inl h)), if_pos h]
  · next h =>
      have h := mt hwithout.1 h
      rw [if_neg h]
      exact if_congr (by rw [hmem, or_iff_right h]) rfl rfl

/-- The loop goes on behind an entry. -/
theorem posixAclEntries_cons (e : AclXattrEntry) (rest : List UInt8) :
    posixAclEntries (e.bytes ++ rest) =
      if AclTag.Known e.eTag.toInt16 then (posixAclEntries rest).map
        (e.decoded :: ·) else none := by
  have hround : posixAclEntries (e.bytes ++ rest) =
      (posixAclEntryOf e.eTag e.ePerm e.eId).bind fun d ↦ (posixAclEntries rest).map (d :: ·) := by
    change posixAclEntries (_ :: _ :: _ :: _ :: _ :: _ :: _ :: _ :: rest) = _
    rw [posixAclEntries, le16_bytes16, le16_bytes16, le32_bytes32]
    cases posixAclEntryOf e.eTag e.ePerm e.eId with
    | none => rfl
    | some d => cases posixAclEntries rest <;> rfl
  rw [hround, posixAclEntryOf_eq]
  split <;> rfl

/-- **The loop of `posix_acl_from_xattr`**, over entries. -/
theorem posixAclEntries_flatMap (entries : List AclXattrEntry) :
    posixAclEntries (entries.flatMap AclXattrEntry.bytes) =
      if ∀ e ∈ entries, AclTag.Known e.eTag.toInt16 then
        some (entries.map AclXattrEntry.decoded) else none := by
  induction entries with
  | nil => rfl
  | cons e entries ih =>
      rw [List.flatMap_cons, posixAclEntries_cons, ih]
      simp only [List.forall_mem_cons, List.map_cons]
      by_cases he : AclTag.Known e.eTag.toInt16
      · simp only [he, if_true, true_and]
        split <;> rfl
      · rw [if_neg he, if_neg fun h ↦ he h.1]

theorem length_flatMap_bytes (entries : List AclXattrEntry) :
    (entries.flatMap AclXattrEntry.bytes).length = entries.length * 8 := by
  induction entries with
  | nil => rfl
  | cons e entries ih =>
      rw [List.flatMap_cons, List.length_append, ih, List.length_cons, Nat.succ_mul, Nat.add_comm]
      rfl

/-- Eight bytes are an entry. -/
theorem exists_entry {bytes : List UInt8} (h : bytes.length = 8) :
    ∃ e : AclXattrEntry, bytes = e.bytes := by
  have hcons {k : Nat} {l : List UInt8} (hl : l.length = k + 1) :
      ∃ b rest, l = b :: rest ∧ rest.length = k := by
    obtain ⟨b, rest, rfl⟩ := List.exists_cons_of_length_eq_add_one hl
    exact ⟨b, rest, rfl, Nat.succ.inj hl⟩
  obtain ⟨t₀, _, rfl, h₁⟩ := hcons h
  obtain ⟨t₁, _, rfl, h₂⟩ := hcons h₁
  obtain ⟨p₀, _, rfl, h₃⟩ := hcons h₂
  obtain ⟨p₁, _, rfl, h₄⟩ := hcons h₃
  obtain ⟨i₀, _, rfl, h₅⟩ := hcons h₄
  obtain ⟨i₁, _, rfl, h₆⟩ := hcons h₅
  obtain ⟨i₂, _, rfl, h₇⟩ := hcons h₆
  obtain ⟨i₃, _, rfl, h₈⟩ := hcons h₇
  obtain rfl := List.eq_nil_of_length_eq_zero h₈
  refine ⟨⟨le16 t₀ t₁, le16 p₀ p₁, le32 i₀ i₁ i₂ i₃⟩, ?_⟩
  rw [AclXattrEntry.bytes, bytes16_le16, bytes16_le16, bytes32_le32]
  rfl

/-- Whole groups of eight bytes are entries. -/
theorem exists_entries {n : Nat} {bytes : List UInt8} (h : bytes.length = n * 8) :
    ∃ entries : List AclXattrEntry, bytes = entries.flatMap AclXattrEntry.bytes := by
  induction n generalizing bytes with
  | zero => exact ⟨[], List.eq_nil_of_length_eq_zero (h.trans (Nat.zero_mul 8))⟩
  | succ n ih =>
      have hfirst : (bytes.take 8).length = 8 := by
        rw [List.length_take, h]
        omega
      have hrest : (bytes.drop 8).length = n * 8 := by
        rw [List.length_drop, h]
        omega
      obtain ⟨e, he⟩ := exists_entry hfirst
      obtain ⟨entries, hentries⟩ := ih hrest
      refine ⟨e :: entries, ?_⟩
      rw [List.flatMap_cons, ← he, ← hentries, List.take_append_drop]

/-! ## Values -/

theorem length_aclXattr (entries : List AclXattrEntry) :
    (aclXattr entries).length = posixAclXattrSize entries.length := by
  rw [aclXattr, List.length_append, length_flatMap_bytes]
  rfl

/-- What `posix_acl_from_xattr` makes of a version and entries. -/
theorem posixAclFromXattr_aclXattr (entries : List AclXattrEntry) :
    posixAclFromXattr (aclXattr entries) =
      if entries ≠ [] ∧ ∀ e ∈ entries, AclTag.Known e.eTag.toInt16 then
        some (entries.map AclXattrEntry.decoded) else none := by
  have hvalue : posixAclFromXattr (aclXattr entries) =
      if entries = [] then none else posixAclEntries (entries.flatMap AclXattrEntry.bytes) := by
    change posixAclFromXattr (_ :: _ :: _ :: _ :: entries.flatMap AclXattrEntry.bytes) = _
    rw [posixAclFromXattr, le32_bytes32, if_neg (not_not_intro rfl), length_flatMap_bytes,
      if_neg (not_not_intro (Nat.mul_mod_left _ _))]
    refine if_congr ?_ rfl rfl
    rw [Nat.mul_eq_zero, List.length_eq_zero_iff]
    exact or_iff_left (by decide)
  rw [hvalue, posixAclEntries_flatMap]
  by_cases hnil : entries = []
  · rw [if_pos hnil, if_neg fun h ↦ h.1 hnil]
  · rw [if_neg hnil]
    exact if_congr (and_iff_right hnil).symm rfl rfl

/-- A value that `posix_acl_from_xattr` takes is a version and entries. -/
theorem exists_aclXattr {value : List UInt8} {acl : PosixAcl}
    (h : posixAclFromXattr value = some acl) :
    ∃ entries, value = aclXattr entries := by
  unfold posixAclFromXattr at h
  split at h
  · next v₀ v₁ v₂ v₃ bytes =>
      split at h
      · cases h
      · next hversion =>
          split at h
          · cases h
          · next hlength =>
              have hwhole : bytes.length = bytes.length / 8 * 8 := by omega
              obtain ⟨entries, rfl⟩ := exists_entries hwhole
              refine ⟨entries, ?_⟩
              rw [aclXattr, ← not_not.1 hversion, bytes32_le32]
              rfl
  · cases h

/-- What `posix_acl_to_xattr` writes is a version and entries. -/
theorem posixAclXattrBytes_eq (acl : PosixAcl) :
    posixAclXattrBytes acl = aclXattr (acl.map PosixAclEntry.encoded) := by
  rw [posixAclXattrBytes, aclXattr, List.flatMap_map]
  rfl

theorem posixAclToXattr_eq {acl : PosixAcl} {size : Nat} (h : posixAclXattrSize acl.length ≤ size) :
    posixAclToXattr acl true size =
      ((posixAclXattrSize acl.length : Int), aclXattr (acl.map PosixAclEntry.encoded)) := by
  rw [posixAclToXattr, posixAclXattrBytes_eq]
  exact if_neg (Nat.not_lt.2 h)

/-- What is read and written again is the entry, up to an id that means nothing. -/
theorem encoded_decoded (e : AclXattrEntry) : e.decoded.encoded = e.normal := by
  have htag : e.eTag.toInt16.toUInt16 = e.eTag := rfl
  unfold AclXattrEntry.decoded PosixAclEntry.encoded AclXattrEntry.normal
  split <;> rw [htag]

/-- A proper entry is what is read when it has been written. -/
theorem decoded_encoded {e : PosixAclEntry} (h : e.Proper) : e.encoded.decoded = e := by
  have htag : e.eTag.toUInt16.toInt16 = e.eTag := rfl
  unfold AclXattrEntry.decoded PosixAclEntry.encoded AclXattrEntry.normal
  rw [htag]
  split
  · next hwithout => rw [← h.undefined hwithout]
  · rfl

/-- **The values of attributes are read and written as they should be.**  `posix_acl_from_xattr`
takes just the values that are a version and at least one entry, all with known tags;
`posix_acl_to_xattr` writes such a value again, up to the ids that mean nothing; and a list in
memory without such ids is what is read again when it has been written. -/
theorem acl_xattr_codec :
    (∀ value : List UInt8, (∃ acl, posixAclFromXattr value = some acl) ↔
      ∃ entries : List AclXattrEntry, entries ≠ [] ∧ (∀ e ∈ entries, AclTag.Known e.eTag.toInt16) ∧
        value = aclXattr entries) ∧
    (∀ (value : List UInt8) (acl : PosixAcl), posixAclFromXattr value = some acl →
      ∃ entries : List AclXattrEntry, value = aclXattr entries ∧ ∀ size, value.length ≤ size →
        posixAclToXattr acl true size =
          ((value.length : Int), aclXattr (entries.map AclXattrEntry.normal))) ∧
    ∀ acl : PosixAcl, acl ≠ [] → (∀ e ∈ acl, e.Proper) → ∀ size,
      posixAclXattrSize acl.length ≤ size →
      posixAclFromXattr (posixAclToXattr acl true size).2 = some acl := by
  refine ⟨fun value ↦ ⟨?_, ?_⟩, ?_, ?_⟩
  · rintro ⟨acl, hacl⟩
    obtain ⟨entries, rfl⟩ := exists_aclXattr hacl
    rw [posixAclFromXattr_aclXattr] at hacl
    split at hacl
    · next h => exact ⟨entries, h.1, h.2, rfl⟩
    · cases hacl
  · rintro ⟨entries, hne, hknown, rfl⟩
    rw [posixAclFromXattr_aclXattr, if_pos ⟨hne, hknown⟩]
    exact ⟨_, rfl⟩
  · intro value acl hacl
    obtain ⟨entries, rfl⟩ := exists_aclXattr hacl
    refine ⟨entries, rfl, fun size hsize ↦ ?_⟩
    rw [posixAclFromXattr_aclXattr] at hacl
    split at hacl
    · obtain rfl := Option.some.inj hacl
      have hlength : (entries.map AclXattrEntry.decoded).length = entries.length :=
        List.length_map _
      rw [length_aclXattr, ← hlength] at hsize ⊢
      rw [posixAclToXattr_eq hsize, List.map_map]
      exact congrArg (fun l ↦ (_, aclXattr l)) (List.map_congr_left fun e _ ↦ encoded_decoded e)
    · cases hacl
  · intro acl hne hproper size hsize
    have hencoded : (acl.map PosixAclEntry.encoded).map AclXattrEntry.decoded = acl := by
      rw [List.map_map]
      exact (List.map_congr_left fun e he ↦ decoded_encoded (hproper e he)).trans (List.map_id acl)
    have hknown : ∀ e ∈ acl.map PosixAclEntry.encoded, AclTag.Known e.eTag.toInt16 :=
      List.forall_mem_map.2 fun e he ↦ (hproper e he).known
    rw [posixAclToXattr_eq hsize, posixAclFromXattr_aclXattr,
      if_pos ⟨fun h ↦ hne (List.map_eq_nil_iff.1 h), hknown⟩, hencoded]

theorem acl_xattr_codec_sample :
    posixAclFromXattr (aclXattr [⟨1, 7, 0⟩, ⟨2, 5, 1000⟩, ⟨32, 4, 0⟩]) =
      some [⟨1, 7, aclUndefinedId⟩, ⟨2, 5, 1000⟩, ⟨32, 4, aclUndefinedId⟩] ∧
    posixAclFromXattr
        (posixAclToXattr [⟨1, 7, aclUndefinedId⟩, ⟨2, 5, 1000⟩, ⟨32, 4, aclUndefinedId⟩] true 100).2
          =
      some [⟨1, 7, aclUndefinedId⟩, ⟨2, 5, 1000⟩, ⟨32, 4, aclUndefinedId⟩] := by
  refine ⟨by decide, acl_xattr_codec.2.2 _ (List.cons_ne_nil _ _) ?_ 100 (by decide)⟩
  rw [List.forall_mem_cons, List.forall_mem_cons, List.forall_mem_singleton]
  exact ⟨⟨by decide, by decide⟩, ⟨by decide, by decide⟩, by decide, by decide⟩

end Hsfs
