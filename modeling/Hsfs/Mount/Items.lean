import Hsfs.Nfs3.Object
import Hsfs.Text.Pieces

/-!
# The items of an option string

`hsi_parse_opts` and `hsi_nfs3_parse_options` cut an option string with the same loop: it walks over
a copy of the string, writes a zero over every comma outside of quotes and hands on the item that
ends there, or at the last character.

`itemLoop` is that loop, over the bytes of the buffer.  What it hands on does not depend on what is
done with it (`forEachItem_eq`): it is the list `items` of the string.
-/

namespace Hsfs.Mount

open Text

/-- The byte `','`. -/
abbrev comma : UInt8 := 44

/-- The byte `'"'`. -/
abbrev quote : UInt8 := 34

theorem comma_ne_quote : comma ≠ quote := by decide

/-! ## The loop -/

section Loop

variable {m : Type → Type} [Monad m] (visit : Name → m Unit)

/-- The byte at `p`. -/
def byteAt (buf : List UInt8) (p : Nat) : UInt8 := buf.getD p 0

/-- The loop over the copy of an option string, at the byte `p`, with the beginning of the item it
is in and whether a quote is open.  The first argument is the number of rounds. -/
def itemLoop : Nat → List UInt8 → Nat → Option Nat → Bool → m Unit
  | 0, _, _, _, _ => pure ()
  | rounds + 1, buf, p, opt, openQuote =>
      if byteAt buf p = 0 then
        pure ()
      else
        -- begin of the option item
        let opt := opt.getD p
        let openQuote := openQuote ^^ byteAt buf p == quote
        if openQuote then
          itemLoop rounds buf (p + 1) (some opt) openQuote
        else
          let buf := if byteAt buf p = comma then buf.set p 0 else buf
          -- end of option item or last item
          if byteAt buf p = 0 ∨ byteAt buf (p + 1) = 0 then do
            visit (cString (buf.drop opt))
            itemLoop rounds buf (p + 1) none openQuote
          else
            itemLoop rounds buf (p + 1) (some opt) openQuote

/-- The loop over a string, with a round for each byte and one for the final zero. -/
def forEachItem (text : Name) : m Unit :=
  itemLoop visit (text.length + 1) (text ++ [0]) 0 none false

end Loop

/-! ## What it hands on -/

/-- The items that are still to come, if the one that has begun is `w` so far. -/
def itemsFrom (openQuote : Bool) (w : Name) : List UInt8 → List Name
  | [] => []
  | c :: rest =>
      let openQuote := openQuote ^^ c == quote
      if openQuote then itemsFrom openQuote (w ++ [c]) rest
      else if c = comma then w :: itemsFrom openQuote [] rest
      else if rest = [] then [w ++ [c]]
      else itemsFrom openQuote (w ++ [c]) rest

/-- The items of an option string. -/
def items (text : Name) : List Name := itemsFrom false [] text

/-- A string in a buffer ends at its zero. -/
theorem cString_append_zero {w : Name} (h : 0 ∉ w) (buf : List UInt8) :
    cString (w ++ 0 :: buf) = w := by
  have hw : ∀ b ∈ w, decide (b ≠ 0) = true := by
    intro b hb
    exact decide_eq_true fun hb0 ↦ h (hb0 ▸ hb)
  unfold cString
  rw [List.takeWhile_append_of_pos hw]
  exact List.append_nil w

theorem byteAt_append {front : List UInt8} {p : Nat} (hp : p = front.length) (c : UInt8)
    (buf : List UInt8) : byteAt (front ++ c :: buf) p = c := by
  subst hp
  unfold byteAt
  rw [List.getD_eq_getElem?_getD, List.getElem?_append_right (Nat.le_refl _), Nat.sub_self]
  rfl

theorem set_append {front : List UInt8} {p : Nat} (hp : p = front.length) (c c' : UInt8)
    (buf : List UInt8) : (front ++ c :: buf).set p c' = front ++ c' :: buf := by
  subst hp
  rw [List.set_append_right _ _ (Nat.le_refl _), Nat.sub_self]
  rfl

section Step

variable {m : Type → Type} [Monad m] {visit : Name → m Unit} {rounds p : Nat} {buf : List UInt8}
  {opt : Option Nat} {openQuote : Bool}

/-- The loop ends at the final zero. -/
theorem itemLoop_zero (h : byteAt buf p = 0) :
    itemLoop visit rounds buf p opt openQuote = pure () := by
  cases rounds with
  | zero => rfl
  | succ rounds => rw [itemLoop, if_pos h]

/-- The item goes on: a quote is open, or this is neither a comma nor the last character. -/
theorem itemLoop_goes (hc : byteAt buf p ≠ 0)
    (h : (openQuote ^^ byteAt buf p == quote) = true ∨
      byteAt buf p ≠ comma ∧ byteAt buf (p + 1) ≠ 0) :
    itemLoop visit (rounds + 1) buf p opt openQuote =
      itemLoop visit rounds buf (p + 1) (some (opt.getD p))
        (openQuote ^^ byteAt buf p == quote) := by
  rw [itemLoop, if_neg hc]
  dsimp only
  by_cases hq : (openQuote ^^ byteAt buf p == quote) = true
  · rw [if_pos hq]
  · obtain ⟨hcomma, hnext⟩ := h.resolve_left hq
    rw [if_neg hq, if_neg hcomma, if_neg (not_or.2 ⟨hc, hnext⟩)]

/-- The item ends: a zero takes the place of the comma, or this is the last character. -/
theorem itemLoop_ends (hc : byteAt buf p ≠ 0) (hq : (openQuote ^^ byteAt buf p == quote) = false)
    {buf' : List UInt8} (hbuf' : (if byteAt buf p = comma then buf.set p 0 else buf) = buf')
    (hend : byteAt buf' p = 0 ∨ byteAt buf' (p + 1) = 0) :
    itemLoop visit (rounds + 1) buf p opt openQuote =
      visit (cString (buf'.drop (opt.getD p))) >>= fun _ ↦
        itemLoop visit rounds buf' (p + 1) none false := by
  rw [itemLoop, if_neg hc]
  dsimp only
  rw [hq, if_neg Bool.false_ne_true, hbuf', if_pos hend]

end Step

/-- **The loop hands on the items.**  The bytes before `front` have been dealt with, `w` is the item
that has begun, and `rest` is still to come. -/
theorem itemLoop_eq {m : Type → Type} [Monad m] (visit : Name → m Unit) {rounds : Nat}
    {front w rest : List UInt8} {p : Nat} {opt : Option Nat} {openQuote : Bool}
    (hrounds : rest.length < rounds) (hw : 0 ∉ w) (hrest : 0 ∉ rest)
    (hp : p = front.length + w.length) (hopt : opt.getD p = front.length) :
    itemLoop visit rounds (front ++ (w ++ (rest ++ [0]))) p opt openQuote =
      (itemsFrom openQuote w rest).forM visit := by
  induction rest generalizing rounds front w p opt openQuote with
  | nil =>
      refine itemLoop_zero ?_
      rw [List.nil_append, ← List.append_assoc]
      exact byteAt_append (by rw [hp, List.length_append]) 0 []
  | cons c rest ih =>
      obtain ⟨rounds, rfl⟩ : ∃ r, rounds = r + 1 := Nat.exists_eq_succ_of_ne_zero (by omega)
      have hrounds : rest.length < rounds := Nat.lt_of_succ_lt_succ hrounds
      have hc : c ≠ 0 := fun hc ↦ hrest (hc ▸ List.mem_cons_self)
      have hrest : 0 ∉ rest := fun h ↦ hrest (List.mem_cons_of_mem c h)
      have hp' : p = (front ++ w).length := by rw [hp, List.length_append]
      have hnext : p + 1 = (front ++ w ++ [c]).length := by
        rw [List.length_append, ← hp', List.length_singleton]
      have hwc : 0 ∉ w ++ [c] := by
        intro h
        rcases List.mem_append.1 h with h | h
        · exact hw h
        · exact hc (List.mem_singleton.1 h).symm
      have hbuf : front ++ (w ++ (c :: rest ++ [0])) = (front ++ w) ++ c :: (rest ++ [0]) := by
        rw [List.append_assoc, List.cons_append]
      have hbyte : byteAt (front ++ (w ++ (c :: rest ++ [0]))) p = c := by
        rw [hbuf]
        exact byteAt_append hp' c _
      -- the item goes on
      have hgoes : ∀ q, itemLoop visit rounds (front ++ (w ++ (c :: rest ++ [0]))) (p + 1)
          (some front.length) q = (itemsFrom q (w ++ [c]) rest).forM visit := by
        intro q
        have hsame : front ++ (w ++ (c :: rest ++ [0])) = front ++ (w ++ [c] ++ (rest ++ [0])) := by
          simp only [List.append_assoc, List.cons_append, List.nil_append]
        rw [hsame]
        refine ih hrounds hwc hrest ?_ rfl
        rw [hp, List.length_append, List.length_singleton, Nat.add_assoc]
      rw [itemsFrom]
      by_cases hq : (openQuote ^^ c == quote) = true
      · rw [itemLoop_goes (hbyte.trans_ne hc) (.inl (by rw [hbyte, hq])), hbyte, hopt, if_pos hq]
        exact hgoes _
      · rw [if_neg hq]
        have hq := Bool.eq_false_iff.2 hq
        by_cases hcomma : c = comma
        · have hbuf' : (if byteAt (front ++ (w ++ (c :: rest ++ [0]))) p = comma then
              (front ++ (w ++ (c :: rest ++ [0]))).set p 0
            else front ++ (w ++ (c :: rest ++ [0]))) = front ++ w ++ 0 :: (rest ++ [0]) := by
            rw [hbyte, if_pos hcomma, hbuf, set_append hp' c 0]
          rw [itemLoop_ends (hbyte.trans_ne hc) (by rw [hbyte, hq]) hbuf'
            (.inl (byteAt_append hp' 0 _)), hopt, if_pos hcomma, hq, List.append_assoc front,
            List.drop_left, cString_append_zero hw]
          refine congrArg (visit w >>= ·) (funext fun _ ↦ ?_)
          have hsame : front ++ (w ++ 0 :: (rest ++ [0])) =
              (front ++ w ++ [0]) ++ ([] ++ (rest ++ [0])) := by
            simp only [List.append_assoc, List.cons_append, List.nil_append]
          have hlen : p + 1 = (front ++ w ++ [0]).length := by
            rw [List.length_append, ← hp', List.length_singleton]
          rw [hsame]
          exact ih hrounds List.not_mem_nil hrest hlen hlen
        · rw [if_neg hcomma]
          cases rest with
          | nil =>
              -- the last character
              have hsame : front ++ (w ++ ([c] ++ [0])) =
                  (front ++ w ++ [c]) ++ ([] ++ ([] ++ [0])) := by
                simp only [List.append_assoc, List.nil_append]
              have hend : byteAt (front ++ (w ++ ([c] ++ [0]))) (p + 1) = 0 := by
                rw [hsame]
                exact byteAt_append hnext 0 []
              rw [itemLoop_ends (hbyte.trans_ne hc) (by rw [hbyte, hq])
                (if_neg (hbyte.trans_ne hcomma)) (.inr hend), hopt, if_pos rfl, List.drop_left,
                ← List.append_assoc w, cString_append_zero hwc, List.append_assoc w, hsame]
              refine congrArg (visit (w ++ [c]) >>= ·) (funext fun _ ↦ ?_)
              exact ih hrounds List.not_mem_nil hrest hnext hnext
          | cons c' rest =>
              have hmore : byteAt (front ++ (w ++ (c :: c' :: rest ++ [0]))) (p + 1) = c' := by
                have hsame : front ++ (w ++ (c :: c' :: rest ++ [0])) =
                    (front ++ w ++ [c]) ++ c' :: (rest ++ [0]) := by
                  simp only [List.append_assoc, List.cons_append, List.nil_append]
                rw [hsame]
                exact byteAt_append hnext c' _
              have hc' : c' ≠ 0 := fun hc' ↦ hrest (hc' ▸ List.mem_cons_self)
              rw [itemLoop_goes (hbyte.trans_ne hc)
                (.inr ⟨hbyte.trans_ne hcomma, hmore.trans_ne hc'⟩), hbyte, hopt,
                if_neg (List.cons_ne_nil _ _)]
              exact hgoes _

/-- **What is handed on does not depend on what is done with it.** -/
theorem forEachItem_eq {m : Type → Type} [Monad m] (visit : Name → m Unit) {text : Name}
    (h : 0 ∉ text) : forEachItem visit text = (items text).forM visit := by
  change itemLoop visit _ ([] ++ ([] ++ (text ++ [0]))) 0 none false = _
  exact itemLoop_eq visit (Nat.lt_succ_self _) List.not_mem_nil h rfl rfl

/-! ## The items of a string -/

/-- What each item but the first takes from the string: its bytes and a comma. -/
def room (ws : List Name) : Nat := (ws.map fun w ↦ w.length + 1).sum

@[simp] theorem room_nil : room [] = 0 := rfl

@[simp] theorem room_cons (w : Name) (ws : List Name) : room (w :: ws) = w.length + 1 + room ws :=
  rfl

theorem room_itemsFrom (openQuote : Bool) (w rest : Name) :
    room (itemsFrom openQuote w rest) ≤ w.length + rest.length + 1 := by
  induction rest generalizing openQuote w with
  | nil => exact Nat.zero_le _
  | cons c rest ih =>
      have hgoes := ih (openQuote ^^ c == quote) (w ++ [c])
      have hnext := ih (openQuote ^^ c == quote) []
      rw [List.length_append, List.length_singleton] at hgoes
      rw [List.length_nil] at hnext
      rw [itemsFrom, List.length_cons]
      split
      · omega
      · split
        · rw [room_cons]
          omega
        · split
          · rw [room_cons, room_nil, List.length_append, List.length_singleton]
            omega
          · omega

/-- There is room for the items in the string. -/
theorem room_items (text : Name) : room (items text) ≤ text.length + 1 := by
  have h := room_itemsFrom false [] text
  rwa [List.length_nil, Nat.zero_add] at h

theorem mem_of_mem_itemsFrom {openQuote : Bool} {w rest v : Name}
    (hv : v ∈ itemsFrom openQuote w rest)
    {b : UInt8} (hb : b ∈ v) : b ∈ w ∨ b ∈ rest := by
  induction rest generalizing openQuote w with
  | nil => exact absurd hv List.not_mem_nil
  | cons c rest ih =>
      have hlonger (h : b ∈ w ++ [c] ∨ b ∈ rest) : b ∈ w ∨ b ∈ c :: rest := by
        rw [List.mem_append, List.mem_singleton, or_assoc] at h
        rwa [List.mem_cons]
      rw [itemsFrom] at hv
      split at hv
      · exact hlonger (ih hv)
      · split at hv
        · rcases List.mem_cons.1 hv with rfl | hv
          · exact .inl hb
          · exact .inr (List.mem_cons_of_mem c ((ih hv).resolve_left List.not_mem_nil))
        · split at hv
          · obtain rfl := List.mem_singleton.1 hv
            exact hlonger (.inl hb)
          · exact hlonger (ih hv)

/-- The bytes of an item are bytes of the string. -/
theorem mem_of_mem_items {text v : Name} (hv : v ∈ items text) {b : UInt8} (hb : b ∈ v) :
    b ∈ text :=
  (mem_of_mem_itemsFrom hv hb).resolve_left List.not_mem_nil

theorem whole_of_mem_itemsFrom {openQuote : Bool} {w rest : Name}
    (hsingle : pieces comma quote false w = [w]) (hquoted : quotedAfter quote false w = openQuote)
    {v : Name} (hv : v ∈ itemsFrom openQuote w rest) : Whole comma quote v := by
  induction rest generalizing openQuote w with
  | nil => exact absurd hv List.not_mem_nil
  | cons c rest ih =>
      have hafter : quotedAfter quote false (w ++ [c]) = (openQuote ^^ c == quote) := by
        rw [quotedAfter_append, hquoted]
        rfl
      have hlonger (hc : ¬ ((openQuote ^^ c == quote) = false ∧ c = comma)) :
          pieces comma quote false (w ++ [c]) = [w ++ [c]] :=
        pieces_concat hsingle (by rwa [hquoted])
      rw [itemsFrom] at hv
      split at hv
      · rename_i hq
        exact ih (hlonger fun h ↦ Bool.false_ne_true (h.1.symm.trans hq)) hafter hv
      · rename_i hq
        rw [Bool.not_eq_true] at hq
        split at hv
        · -- outside of quotes before the comma, too
          rename_i hcomma
          rcases List.mem_cons.1 hv with rfl | hv
          · refine ⟨hsingle, ?_⟩
            rw [hquoted, ← hq, hcomma]
            exact (Bool.xor_false openQuote).symm
          · rw [hq] at hv
            have hnone : pieces comma quote false [] = [[]] := rfl
            exact ih hnone rfl hv
        · rename_i hcomma
          have hlonger := hlonger fun h ↦ hcomma h.2
          split at hv
          · obtain rfl := List.mem_singleton.1 hv
            exact ⟨hlonger, hafter.trans hq⟩
          · exact ih hlonger hafter hv

/-- **Every item is one piece with its quotes closed.** -/
theorem whole_of_mem_items {text v : Name} (hv : v ∈ items text) : Whole comma quote v := by
  have hnone : pieces comma quote false [] = [[]] := rfl
  exact whole_of_mem_itemsFrom hnone rfl hv

theorem itemsFrom_eq_pieces {openQuote : Bool} {w rest : Name} (hw : rest = [] → w = [])
    (hclosed : quotedAfter quote openQuote rest = false) :
    itemsFrom openQuote w rest =
      dropEmptyLast ((pieces comma quote openQuote rest).modifyHead (w ++ ·)) := by
  induction rest generalizing openQuote w with
  | nil =>
      obtain rfl := hw rfl
      rfl
  | cons c rest ih =>
      rw [quotedAfter_cons] at hclosed
      obtain ⟨v, vs, hv⟩ := exists_pieces_eq comma quote (openQuote ^^ c == quote) rest
      -- the item goes on
      have hgoes (hmore : rest ≠ []) : itemsFrom (openQuote ^^ c == quote) (w ++ [c]) rest =
          dropEmptyLast (((v :: vs).modifyHead (c :: ·)).modifyHead (w ++ ·)) := by
        rw [ih (fun h ↦ absurd h hmore) hclosed, hv, List.modifyHead_cons, List.modifyHead_cons,
          List.modifyHead_cons, List.append_assoc]
        rfl
      rw [itemsFrom, pieces, hv]
      by_cases hq : (openQuote ^^ c == quote) = true
      · have hmore : rest ≠ [] := by
          rintro rfl
          exact Bool.false_ne_true (hclosed.symm.trans hq)
        rw [if_pos hq, if_neg fun h ↦ Bool.false_ne_true (h.1.symm.trans hq)]
        exact hgoes hmore
      · rw [if_neg hq]
        rw [Bool.not_eq_true] at hq
        by_cases hcomma : c = comma
        · rw [if_pos hcomma, if_pos ⟨hq, hcomma⟩, List.modifyHead_cons, List.append_nil,
            dropEmptyLast_cons (List.cons_ne_nil v vs), ih (fun _ ↦ rfl) hclosed, hv]
          rfl
        · have hno : ¬ ((openQuote ^^ c == quote) = false ∧ c = comma) := fun h ↦ hcomma h.2
          rw [if_neg hcomma, if_neg hno]
          split
          · rename_i hlast
            subst hlast
            obtain ⟨rfl, rfl⟩ := List.cons.inj hv
            have hne : ¬ [w ++ [c]].getLast? = some [] := by
              intro h
              exact List.append_ne_nil_of_right_ne_nil w (List.cons_ne_nil c []) (Option.some.inj h)
            exact (if_neg hne).symm
          · exact hgoes ‹_›

/-- **The items of a string with an even number of quotes are its pieces**, less an empty last
one. -/
theorem items_eq_pieces {text : Name} (h : quotedAfter quote false text = false) :
    items text = dropEmptyLast (pieces comma quote false text) := by
  obtain ⟨v, vs, hv⟩ := exists_pieces_eq comma quote false text
  rw [items, itemsFrom_eq_pieces (fun _ ↦ rfl) h, hv]
  rfl

end Hsfs.Mount
