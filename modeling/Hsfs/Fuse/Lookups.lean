import Hsfs.Fuse.Frame

/-!
# Lookup counts

The kernel counts how often it has been told of an inode, and gives its count back when it forgets
the inode.  The daemon counts along in the field `private`, and the two should always agree.

`Daemon.Counts` says by how much the counts of the cached inodes have changed, number by number.  It
composes, and each handler is described by it once; the run of a session is then an induction in
which only the numbers are added up.
-/

namespace Hsfs

open Interact Interact.Act Daemon

/-! ## Changes of the counts -/

/-- The cache has grown, and the lookup count of the inode with number `n` has gone up by `δ n`.
New inodes start from zero, and under new numbers. -/
structure Daemon.Counts (d : Daemon) (δ : UInt64 → UInt64) (d' : Daemon) : Prop where
  root : d'.sb.root = d.sb.root
  cacheOk : d'.NoneFreed → d'.CacheOk
  mem : ∀ p ∈ d.sb.idTable, p ∈ d'.sb.idTable
  keep : ∀ p ∈ d.sb.idTable, ∀ i', d'.heap p = some i' →
    ∃ i, d.heap p = some i ∧ i'.ino = i.ino ∧ i'.priv = i.priv + δ i.ino
  new : ∀ p ∈ d'.sb.idTable, p ∉ d.sb.idTable → ∀ i', d'.heap p = some i' →
    i'.priv = δ i'.ino ∧ ∀ q ∈ d.sb.idTable, ∀ j, d.heap q = some j → j.ino ≠ i'.ino
  numbered : d'.NoneFreed → ∀ n, δ n ≠ 0 → ∃ p ∈ d'.sb.idTable, ∃ i, d'.heap p = some i ∧ i.ino = n

namespace Daemon.Counts

variable {d d₁ d' : Daemon} {δ δ' : UInt64 → UInt64}

theorem of_eq (h : d.Counts δ d') (heq : ∀ n, δ n = δ' n) : d.Counts δ' d' := funext heq ▸ h

/-- Only the cache matters. -/
theorem congr (h : d.Counts δ d₁) (hl : d'.layout = d₁.layout) (hh : d'.heap = d₁.heap)
    (hs : d'.sb = d₁.sb) : d.Counts δ d' where
  root := hs ▸ h.root
  cacheOk := fun hlive ↦ by
    refine (h.cacheOk ?_).congr hl hh (by rw [hs]) (by rw [hs])
    intro p hp
    exact hh ▸ hlive p (hs ▸ hp)
  mem := fun p hp ↦ hs ▸ h.mem p hp
  keep := fun p hp i' hi' ↦ h.keep p hp i' (hh ▸ hi')
  new := fun p hp hn i' hi' ↦ h.new p (hs ▸ hp) hn i' (hh ▸ hi')
  numbered := fun hlive n hn ↦ by
    obtain ⟨p, hp, i, hi, hino⟩ := h.numbered (fun p hp ↦ hh ▸ hlive p (hs ▸ hp)) n hn
    exact ⟨p, hs ▸ hp, i, hh ▸ hi, hino⟩

/-- The cache grows. -/
theorem of_extends (hd : d.CacheOk) (hd' : d'.CacheOk) (hx : d.Extends d')
    (hroot : d'.sb.root = d.sb.root) : d.Counts (fun _ ↦ 0) d' where
  root := hroot
  cacheOk := fun _ ↦ hd'
  mem := hx.mem
  keep := by
    intro p hp i' hi'
    obtain ⟨i, hi⟩ := hd.live p hp
    obtain ⟨i'', hi'', hsame, hpriv⟩ := hx.keep p i hi
    obtain rfl := Option.some.inj (hi'.symm.trans hi'')
    exact ⟨i, hi, hsame.ino, by rw [hpriv, UInt64.add_zero]⟩
  new := by
    intro p hp hn i' hi'
    obtain ⟨i'', hi'', hpriv⟩ := hx.new p hp hn
    obtain rfl := Option.some.inj (hi'.symm.trans hi'')
    refine ⟨hpriv, fun q hq j hj heq ↦ hn ?_⟩
    -- a number that is in use stays in use
    obtain ⟨j', hj', hsame, -⟩ := hx.keep q j hj
    have hpq : p = q := hd'.inj p hp q (hx.mem q hq) (by
      rw [inoOf_eq hi', inoOf_eq hj', hsame.ino, heq])
    exact hpq ▸ hq
  numbered := fun _ _ h ↦ absurd rfl h

/-- Inodes are put. -/
theorem of_puts {es : List Event} (hd : d.CacheOk) (h : Puts d es d') :
    d.Counts (fun _ ↦ 0) d' where
  root := h.root
  cacheOk := h.cacheOk hd
  mem := fun p hp ↦ h.idTable ▸ hp
  keep := by
    intro p _ i' hi'
    obtain ⟨i, count, hi, rfl⟩ := h.heap p i' hi'
    exact ⟨i, hi, rfl, (UInt64.add_zero _).symm⟩
  new := fun p hp hn ↦ absurd (h.idTable ▸ hp) hn
  numbered := fun _ _ h ↦ absurd rfl h

/-- The count of one inode is changed. -/
theorem of_setPriv (hd : d.CacheOk) {p : Addr} {i : Inode} (hp : p ∈ d.sb.idTable)
    (hi : d.heap p = some i) (v : UInt64) :
    d.Counts (fun n ↦ if i.ino = n then v else 0)
      (d.setInode p { i with priv := i.priv + v }) where
  root := rfl
  cacheOk := fun _ ↦ hd.setInode hi ⟨rfl, rfl, rfl, rfl, rfl⟩
  mem := fun _ hq ↦ hq
  keep := by
    intro q hq j hj
    by_cases hqp : q = p
    · subst hqp
      rw [d.setInode_heap_self] at hj
      obtain rfl := Option.some.inj hj
      exact ⟨i, hi, rfl, by rw [if_pos rfl]⟩
    · rw [d.setInode_heap_of_ne hqp] at hj
      have hne : i.ino ≠ j.ino := by
        intro heq
        exact hqp (hd.inj q hq p hp (by rw [inoOf_eq hj, inoOf_eq hi, heq]))
      exact ⟨j, hj, rfl, by rw [if_neg hne, UInt64.add_zero]⟩
  new := fun q hq hn ↦ absurd hq hn
  numbered := by
    intro _ n hn
    by_cases heq : i.ino = n
    · exact ⟨p, hp, _, d.setInode_heap_self p _, heq⟩
    · exact absurd (if_neg heq) hn

/-- One change after another. -/
theorem trans (h : d.Counts δ d₁) (hlive : d₁.NoneFreed) (h' : d₁.Counts δ' d') :
    d.Counts (fun n ↦ δ n + δ' n) d' where
  root := h'.root.trans h.root
  cacheOk := h'.cacheOk
  mem := fun p hp ↦ h'.mem p (h.mem p hp)
  keep := by
    intro p hp i'' hi''
    obtain ⟨i', hi', hino', hpriv'⟩ := h'.keep p (h.mem p hp) i'' hi''
    obtain ⟨i, hi, hino, hpriv⟩ := h.keep p hp i' hi'
    exact ⟨i, hi, hino'.trans hino, by rw [hpriv', hpriv, hino, UInt64.add_assoc]⟩
  new := by
    intro p hp hn i'' hi''
    have hfresh (n : UInt64) (hn : ∀ q ∈ d₁.sb.idTable, ∀ j, d₁.heap q = some j → j.ino ≠ n) :
        ∀ q ∈ d.sb.idTable, ∀ j, d.heap q = some j → j.ino ≠ n := by
      intro q hq j hj heq
      obtain ⟨j', hj'⟩ := Option.isSome_iff_exists.1 (hlive q (h.mem q hq))
      obtain ⟨k, hk, hino, -⟩ := h.keep q hq j' hj'
      obtain rfl := Option.some.inj (hj.symm.trans hk)
      exact hn q (h.mem q hq) j' hj' (hino.trans heq)
    by_cases hp₁ : p ∈ d₁.sb.idTable
    · obtain ⟨i', hi', hino', hpriv'⟩ := h'.keep p hp₁ i'' hi''
      obtain ⟨hpriv, hnone⟩ := h.new p hp₁ hn i' hi'
      rw [hino']
      exact ⟨by rw [hpriv', hpriv], hnone⟩
    · obtain ⟨hpriv', hnone⟩ := h'.new p hp hp₁ i'' hi''
      have hzero : δ i''.ino = 0 := by
        by_contra hne
        obtain ⟨q, hq, j, hj, hino⟩ := h.numbered hlive _ hne
        exact hnone q hq j hj hino
      exact ⟨by rw [hpriv', hzero, UInt64.zero_add], hfresh _ hnone⟩
  numbered := by
    intro hlive' n hn
    by_cases hδ : δ n = 0
    · exact h'.numbered hlive' n fun hδ' ↦ hn (by rw [hδ, hδ', UInt64.zero_add])
    · obtain ⟨p, hp, i, hi, hino⟩ := h.numbered hlive n hδ
      obtain ⟨i', hi'⟩ := Option.isSome_iff_exists.1 (hlive' p (h'.mem p hp))
      obtain ⟨k, hk, hino', -⟩ := h'.keep p hp i' hi'
      obtain rfl := Option.some.inj (hi.symm.trans hk)
      exact ⟨p, h'.mem p hp, i', hi', hino'.trans hino⟩

end Daemon.Counts

/-! ## Handlers that tell the kernel of one object -/

/-- How often some answers tell the kernel of the inode with some number. -/
def toldBy (rs : List Reply) (n : UInt64) : UInt64 := (rs.map (·.told n)).sum

theorem toldBy_plain {rs : List Reply} (h : ∀ r ∈ rs, r.Plain) : toldBy rs = fun _ ↦ 0 := by
  funext n
  induction rs with
  | nil => rfl
  | cons r rs ih =>
      have hr := h r List.mem_cons_self n
      have hrs := ih fun r hr ↦ h r (List.mem_cons_of_mem _ hr)
      unfold toldBy at hrs ⊢
      rw [List.map_cons, List.sum_cons, hr, hrs, UInt64.zero_add]

theorem toldBy_singleton (r : Reply) : toldBy [r] = r.told := by
  funext n
  exact UInt64.add_zero _

/-- If the piece of code completes and the answers it has sent have the property `P`, then lookups
have been counted as often as the kernel has been told of them, apart from what the kernel knows
anyway. -/
def Tells (P : List Reply → Prop) (known : UInt64 → UInt64) (x : Hs Unit) (d : Daemon) : Prop :=
  Ends (fun _ _ d' ↦ ∃ rs, d'.replies = d.replies ++ rs ∧
      (P rs → d.Counts (fun n ↦ toldBy rs n + known n) d'))
    (fun _ _ _ ↦ True) x d

namespace Tells

variable {P : List Reply → Prop} {d : Daemon}

/-- A computation that makes no call. -/
theorem ret {x : Hs Unit} {known : UInt64 → UInt64} {d' : Daemon}
    (hx : x.run d = .ret (.ok (), d')) {rs : List Reply} (hrs : d'.replies = d.replies ++ rs)
    (hc : P rs → d.Counts (fun n ↦ toldBy rs n + known n) d') : Tells P known x d :=
  Ends.of_ret hx ⟨rs, hrs, hc⟩

theorem throws {x : Hs Unit} {known : UInt64 → UInt64} {e : Fault} {d' : Daemon}
    (hx : x.run d = .ret (.error e, d')) : Tells P known x d :=
  Ends.of_fault hx trivial

/-- A handler that counts no lookups. -/
theorem of_plain (hd : d.CacheOk) {x : Hs Unit} (hx : Evolves Plainly x) :
    Tells P (fun _ ↦ 0) x d := by
  refine (Ends.of_evolves hx d).mono (fun es _ d' hplain ↦ ?_) fun _ _ _ _ ↦ trivial
  obtain ⟨rs, hrs, hnone⟩ := hplain.replies
  obtain ⟨hd', hext⟩ := hplain.grows hd
  refine ⟨rs, hrs, fun _ ↦ ?_⟩
  rw [toldBy_plain hnone]
  exact .of_extends hd hd' hext hplain.root

/-- A handler that looks an inode up first. -/
theorem ilookup (hd : d.CacheOk) {known : UInt64 → UInt64} {ino : UInt64}
    {f : Option Addr → Hs Unit} (hnone : d.ilookup ino = none → Tells P known (f none) d)
    (hsome : ∀ p i, d.ilookup ino = some p → d.heap p = some i → Tells P known (f (some p)) d) :
    Tells P known (hsfsIlookup ino >>= f) d := by
  rcases d.hsfsIlookup_cases ino with ⟨hl, hrun⟩ | ⟨p, i, hl, hi, hrun⟩ | ⟨p, hl, hnone', -⟩
  · exact Ends.ret_bind hrun (hnone hl)
  · exact Ends.ret_bind hrun (hsome p i hl hi)
  · have hfree := hd.noneFreed p (hd.ilookup_eq_some_iff.1 hl).1
    rw [hnone'] at hfree
    cases hfree

/-- First something that makes the cache grow. -/
theorem after {α : Type} {x : Hs α} {f : α → Hs Unit} {known : UInt64 → UInt64}
    {Q : α → Daemon → Prop} (hd : d.CacheOk)
    (hx : Ends (fun es a d' ↦ (Grows d es d' ∧ Silent d es d') ∧ Q a d') (fun _ _ _ ↦ True) x d)
    (hf : ∀ a d', d'.CacheOk → Q a d' → Tells P known (f a) d') :
    Tells P known (x >>= f) d := by
  refine Ends.bind hx ?_ fun _ _ _ _ ↦ trivial
  rintro es a d₁ ⟨⟨hgrows, hsilent⟩, hQ⟩
  obtain ⟨hd₁, hext⟩ := hgrows hd
  refine Ends.mono (hf a d₁ hd₁ hQ) ?_ fun _ _ _ _ ↦ trivial
  rintro _ _ d' ⟨rs, hrs, hcounts⟩
  refine ⟨rs, by rw [hrs, hsilent.replies], fun hP ↦ ?_⟩
  have htrans := (Counts.of_extends hd hd₁ hext hsilent.root).trans hd₁.noneFreed (hcounts hP)
  simpa only [UInt64.zero_add] using htrans

/-- The answer is an error. -/
theorem err (hd : d.CacheOk) (e : Int) : Tells P (fun _ ↦ 0) (fuseReply (.err e)) d :=
  of_plain hd (PlainFrame.plainly.err e)

/-- **An operation that yields an object, and the answer.** -/
theorem object {x : Hs (Int × Addr)} (use : Addr → Hs Unit) (hd : d.CacheOk)
    (hx : Yields false d x) (hgrows : Evolves Grows x) (hsilent : Evolves Silent x)
    (huse : ∀ {d : Daemon} {p : Addr} {i : Inode}, d.CacheOk →
      p ∈ d.sb.idTable → d.heap p = some i → Tells P (fun _ ↦ 0) (use p) d)
    (hbad : ∀ {d : Daemon} {p : Addr}, d.heap p = none →
      d.layout.nearBad p = true → Tells P (fun _ ↦ 0) (use p) d) :
    Tells P (fun _ ↦ 0) (x >>= fun r ↦
      if r.1 ≠ 0 then fuseReply (.err r.1)
      else if r.2 = Addr.null then fuseReply (.err Errno.nomem)
      else use r.2) d := by
  refine after (Q := fun r d' ↦ ∃ harm, Outcome harm d' r.1 r.2) hd (fun tr ↦ ?_) ?_
  · refine wp_mono ?_ (fun _ _ _ ⟨⟨es, he, _⟩, _⟩ ↦ ⟨es, he, trivial⟩)
      (wp_and (hx tr) ((hgrows.and hsilent) d tr))
    rintro r d' _ ⟨⟨es, rfl, hout⟩, es', he, hquiet⟩
    obtain rfl := List.append_cancel_left he
    exact ⟨es, rfl, hquiet, _, hout⟩
  · rintro ⟨err, new⟩ d' hd' ⟨harm, hout⟩
    dsimp only at hout ⊢
    by_cases herr : err = 0
    · subst herr
      rw [if_neg (fun h ↦ h rfl)]
      by_cases hnull : new = Addr.null
      · rw [if_pos hnull]
        exact .err hd' _
      · rw [if_neg hnull]
        cases hout with
        | failed herr => exact absurd rfl herr
        | obtained hobt =>
            rcases hobt with ⟨hnew, -⟩ | ⟨hbadptr, -⟩
            · obtain ⟨i, hi⟩ := hd'.live new hnew
              exact huse hd' hnew hi
            · exact hbad (hd'.heap_of_bad hbadptr.nearBad) hbadptr.nearBad
    · rw [if_pos herr]
      exact .err hd' _

end Tells

section entries

/-- What `hsx_fuse_lookup` does with an object that it has found. -/
def answerFound (p : Addr) : Hs Unit := do
  let _ ← hsxFuseRefInc p 1
  let e ← hsxFuseFillReply p
  fuseReply (.entry e)

/-- What create, mkdir, mknod and symlink do with an object that they have made. -/
def answerNew (rep : EntryParam → Reply) (p : Addr) : Hs Unit := do
  let ref ← hsxFuseRefXchg p 1
  assertThat .newRef (ref == 0)
  let e ← hsxFuseFillReply p
  fuseReply (rep e)

variable {P : List Reply → Prop} {d : Daemon} {p : Addr} {i : Inode}

/-- The count goes up by one, and the kernel is told of the inode once. -/
theorem counts_entry (hd : d.CacheOk) (hp : p ∈ d.sb.idTable) (hi : d.heap p = some i) {r : Reply}
    (hr : r.told = fun n ↦ if i.ino = n then 1 else 0) :
    d.Counts (fun n ↦ toldBy [r] n + 0) (d.setInode p { i with priv := i.priv + 1 }) := by
  rw [toldBy_singleton, hr]
  simpa only [UInt64.add_zero] using Counts.of_setPriv hd hp hi 1

theorem tells_lookup (hd : d.CacheOk) (hp : p ∈ d.sb.idTable) (hi : d.heap p = some i) :
    Tells P (fun _ ↦ 0) (answerFound p) d := by
  refine .ret ((run_bind_of_ret (hsxFuseRefInc_run hi 1) _).trans
    (entry_run (Daemon.setInode_heap_self _ _ _) .entry)) rfl fun _ ↦ ?_
  exact (counts_entry hd hp hi rfl).congr rfl rfl rfl

theorem tells_lookup_bad (hnone : d.heap p = none) (hbad : d.layout.nearBad p = true) :
    Tells P (fun _ ↦ 0) (answerFound p) d :=
  .throws ((run_bind_of_ret (hsxFuseRefInc_bad hnone hbad 1) _).trans
    (entry_bad_run (d := d.noted p) hnone hbad .entry))

theorem tells_replyNew (hd : d.CacheOk) (hp : p ∈ d.sb.idTable) (hi : d.heap p = some i)
    {rep : EntryParam → Reply} (hrep : ∀ e, (rep e).told = fun n ↦ if e.ino = n then 1 else 0) :
    Tells P (fun _ ↦ 0) (answerNew rep p) d := by
  by_cases hzero : i.priv = 0
  · have hone : ({ i with priv := 1 } : Inode) = { i with priv := i.priv + 1 } := by
      rw [hzero]
      rfl
    obtain ⟨e, hino, hrun⟩ := newEntry_run hi hzero rep
    refine .ret hrun rfl fun _ ↦ ?_
    have hcounts := counts_entry hd hp hi (hino ▸ hrep e)
    rw [← hone] at hcounts
    exact hcounts.congr rfl rfl rfl
  · exact .throws (newEntry_abort_run hi hzero rep)

theorem tells_replyNew_bad {rep : EntryParam → Reply} (hnone : d.heap p = none)
    (hbad : d.layout.nearBad p = true) :
    Tells P (fun _ ↦ 0) (answerNew rep p) d :=
  .throws (newEntry_bad_run hnone hbad rep)

end entries

/-! ## Links -/

/-- **A link that is not answered with an entry tells the kernel of nothing.** -/
theorem tells_link {d : Daemon} (hd : d.CacheOk) (ino newparent : UInt64) (newname : Name) :
    Tells (fun rs ↦ ∀ r ∈ rs, r.Plain) (fun _ ↦ 0) (hsxFuseLink ino newparent newname) d := by
  have hnone : Evolves Plainly (pure () : Hs Unit) := PlainFrame.plainly.pure ()
  refine .ilookup hd (fun _ ↦ .of_plain hd hnone) fun q j _ hj ↦
    .ilookup hd (fun _ ↦ .of_plain hd hnone) fun p i _ hi ↦ ?_
  refine .after (Q := fun _ d' ↦ ∃ i, d'.heap p = some i) hd ?_ fun err d' hd' ⟨i', hi'⟩ ↦ ?_
  · have hquiet := (HandleFrame.grows.link p q newname).and (HandleFrame.silent.link p q newname)
    refine (Ends.of_evolves hquiet d).mono (fun es _ d' h ↦ ⟨h, ?_⟩) fun _ _ _ _ ↦ trivial
    obtain ⟨i', hi', -⟩ := (h.1 hd).2.keep p i hi
    exact ⟨i', hi'⟩
  · by_cases herr : err = 0
    · rw [if_neg (not_not.2 herr)]
      refine ends_malloc_bind fun got ↦ ?_
      cases got with
      | false => exact Tells.err hd' _
      | true =>
          -- the entry is sent, and nobody has counted it
          refine Tells.ret (entry_run hi' .entry) rfl fun hplain ↦ ?_
          have hzero := hplain _ List.mem_cons_self i'.ino
          exact absurd ((if_pos rfl).symm.trans hzero) (by decide)
    · rw [if_pos herr]
      exact .err hd' _

/-! ## Listings -/

theorem countP_toUInt64_cons (e : DirentPlus) (es : List DirentPlus) (n : UInt64) :
    (if e.entry.ino = n then 1 else 0) + (es.countP fun e ↦ e.entry.ino = n).toUInt64 =
      ((e :: es).countP fun e ↦ e.entry.ino = n).toUInt64 := by
  rw [List.countP_cons]
  by_cases h : e.entry.ino = n
  · rw [if_pos h, if_pos (decide_eq_true h), UInt64.add_comm]
    exact (UInt64.ofNat_add _ 1).symm
  · rw [if_neg h, if_neg (mt of_decide_eq_true h), UInt64.zero_add, Nat.add_zero]

/-- Each entry that fits is counted. -/
theorem addDirentsPlus_counts (size : Nat) {d : Daemon} (hd : d.CacheOk) {cs : List ReaddirCtx}
    (hcs : ∀ c ∈ cs, c.inode ∈ d.sb.idTable ∨ d.BadPtr c.inode) (len : Nat) :
    ∃ out d', (addDirentsPlus size cs len).run d = .ret (out, d') ∧ d'.replies = d.replies ∧
      ∀ entries, out = .ok entries →
        d.Counts (fun n ↦ (entries.countP fun e ↦ e.entry.ino = n).toUInt64) d' := by
  induction cs generalizing d len with
  | nil =>
      refine ⟨.ok [], d, rfl, rfl, fun entries h ↦ ?_⟩
      cases h
      exact .of_extends hd hd (.refl d) rfl
  | cons c cs ih =>
      unfold addDirentsPlus
      rcases hcs c List.mem_cons_self with hmem | hbad
      · obtain ⟨i, hi⟩ := hd.live c.inode hmem
        rw [run_bind_of_ret (hsxFuseFillReply_run hi)]
        by_cases hfit : fuseAddDirentryPlus c.name ≥ size - len
        · rw [if_pos hfit]
          refine ⟨.ok [], d.noted c.inode, rfl, rfl, fun entries h ↦ ?_⟩
          cases h
          exact (Counts.of_extends hd hd (.refl d) rfl).congr rfl rfl rfl
        · have hi' : (d.noted c.inode).heap c.inode = some i := hi
          have hcounts : d.Counts (fun n ↦ if i.ino = n then 1 else 0)
              (((d.noted c.inode).noted c.inode).setInode c.inode { i with priv := i.priv + 1 }) :=
            (Counts.of_setPriv hd hmem hi 1).congr rfl rfl rfl
          have hd₁ : (((d.noted c.inode).noted c.inode).setInode c.inode
              { i with priv := i.priv + 1 }).CacheOk :=
            (hd.setInode hi (j := { i with priv := i.priv + 1 }) ⟨rfl, rfl, rfl, rfl, rfl⟩).congr
              rfl rfl rfl rfl
          obtain ⟨out, d', hrun, hrep, hok⟩ := ih hd₁ (fun c' hc' ↦
            (hcs c' (List.mem_cons_of_mem _ hc')).imp id fun h ↦ ⟨h.nearBad, h.notErr, h.ne_null⟩)
            (len + fuseAddDirentryPlus c.name)
          rw [if_neg hfit, run_bind_of_ret (hsxFuseRefInc_run hi' 1), run_bind, hrun]
          cases out with
          | error e => exact ⟨.error e, d', rfl, hrep, fun _ h ↦ nomatch h⟩
          | ok more =>
              refine ⟨.ok (⟨i.entryParam d.sb, c.name, c.off⟩ :: more), d', rfl, hrep, ?_⟩
              intro entries h
              cases h
              have htrans := hcounts.trans hd₁.noneFreed (hok more rfl)
              exact htrans.of_eq (countP_toUInt64_cons ⟨i.entryParam d.sb, c.name, c.off⟩ more)
      · refine ⟨.error .segv, d.noted c.inode, ?_, rfl, fun _ h ↦ nomatch h⟩
        rw [run_bind, hsxFuseFillReply_bad (hd.heap_of_bad hbad.nearBad) hbad.nearBad]
        rfl

/-- The entry is not the one for the directory itself or for its parent. -/
def DirentPlus.NotDots (e : DirentPlus) : Prop := e.name ≠ nameOf "." ∧ e.name ≠ nameOf ".."

/-- Without those entries, the kernel counts what it is told. -/
theorem told_direntsPlus {entries : List DirentPlus}
    (h : ∀ e ∈ entries, e.NotDots) (n : UInt64) :
    (Reply.direntsPlus entries).told n = (entries.countP fun e ↦ e.entry.ino = n).toUInt64 := by
  have hcount : entries.countP
      (fun e ↦ decide (e.entry.ino = n ∧ e.name ≠ nameOf "." ∧ e.name ≠ nameOf "..")) =
      entries.countP fun e ↦ decide (e.entry.ino = n) := by
    refine List.countP_congr fun e he ↦ ?_
    simp only [decide_eq_true_eq]
    exact and_iff_left (h e he)
  exact congrArg Nat.toUInt64 hcount

/-- **A listing without those entries.** -/
theorem tells_readdirPlus {d : Daemon} (hd : d.CacheOk) (ino size off : UInt64) :
    Tells (fun rs ↦ ∀ entries, .direntsPlus entries ∈ rs → ∀ e ∈ entries, e.NotDots) (fun _ ↦ 0)
      (hsxFuseReaddirPlus ino size off) d := by
  refine .ilookup hd (fun _ ↦ .throws rfl) fun p i _ hi ↦ ?_
  refine Ends.bind ((hd.ends_hsiNfs3ReaddirPlus hi _ off _).and
    (.of_evolves (HandleFrame.silent.readdirPlus Silent.iput p _ off _) d)) ?_ fun _ _ _ _ ↦ trivial
  rintro es ⟨err, cs⟩ d₁ ⟨hplus, hquiet⟩
  cases hplus with
  | failed herr _ hext hd₀ hputs _ =>
      dsimp only at herr ⊢
      rw [if_pos herr]
      refine .of_ret rfl ⟨[.err err], congrArg (· ++ [Reply.err err]) hquiet.replies, fun _ ↦ ?_⟩
      have hcounts := (Counts.of_extends hd hd₀ hext (hputs.root.symm.trans hquiet.root)).trans
        hd₀.noneFreed (.of_puts hd₀ hputs)
      exact (hcounts.of_eq fun _ ↦ rfl).congr rfl rfl rfl
  | listed _ _ hext hl =>
      dsimp only
      rw [if_neg (fun h ↦ h rfl)]
      have hgrown := Counts.of_extends hd hl.cacheOk hext hquiet.root
      refine ends_malloc_bind fun got ↦ ?_
      cases got with
      | false =>
          refine .of_ret rfl ⟨[.err Errno.nomem],
            congrArg (· ++ [Reply.err Errno.nomem]) hquiet.replies, fun _ ↦ ?_⟩
          exact (hgrown.of_eq fun _ ↦ rfl).congr rfl rfl rfl
      | true =>
          obtain ⟨out, d', hrun, hrep, hok⟩ :=
            addDirentsPlus_counts size.toNat hl.cacheOk hl.mem_or_bad 0
          cases out with
          | error e => exact .fault_bind hrun trivial
          | ok entries =>
              refine .ret_bind hrun (.of_ret rfl ⟨[.direntsPlus entries],
                congrArg (· ++ [Reply.direntsPlus entries]) (hrep.trans hquiet.replies),
                fun hdots ↦ ?_⟩)
              have hnodots := hdots entries List.mem_cons_self
              refine ((hgrown.trans hl.cacheOk.noneFreed (hok entries rfl)).of_eq fun n ↦ ?_).congr
                rfl rfl rfl
              rw [toldBy_singleton, told_direntsPlus hnodots, UInt64.zero_add, UInt64.add_zero]

/-! ## Forgetting, and the root -/

/-- What the kernel knows of the counts without being told. -/
def Request.known : Request → UInt64 → UInt64
  | .init, n => if 1 = n then 1 else 0
  | .forget ino nlookup, n => if ino = n then -nlookup else 0
  | _, _ => 0

theorem tells_forget {P : List Reply → Prop} {d : Daemon} (hd : d.CacheOk) (ino nlookup : UInt64) :
    Tells P (Request.forget ino nlookup).known (hsxFuseForget ino nlookup) d := by
  refine .ilookup hd (fun _ ↦ .throws rfl) fun p i hl hi ↦ ?_
  obtain ⟨hp, hino⟩ := hd.ilookup_eq_some_iff.1 hl
  rw [inoOf_eq hi] at hino
  by_cases hle : nlookup ≤ i.priv
  · -- the count goes down, and the inode may be put
    have hsub : i.priv - nlookup = i.priv + -nlookup := UInt64.sub_eq_add_neg _ _
    have hcounts : d.Counts (fun n ↦ if i.ino = n then -nlookup else 0)
        ((d.noted p).setInode p { i with priv := i.priv - nlookup }) := by
      rw [hsub]
      exact (Counts.of_setPriv hd hp hi (-nlookup)).congr rfl rfl rfl
    have hd₁ : ((d.noted p).setInode p { i with priv := i.priv - nlookup }).CacheOk :=
      (hd.setInode hi (j := { i with priv := i.priv - nlookup }) ⟨rfl, rfl, rfl, rfl, rfl⟩).congr
        rfl rfl rfl rfl
    have hfinish {d' : Daemon} {es : List Event}
        (hputs : Puts ((d.noted p).setInode p { i with priv := i.priv - nlookup }) es d') :
        d'.replies ++ [Reply.none] = d.replies ++ [Reply.none] ∧
          d.Counts (fun n ↦ toldBy [.none] n + (Request.forget ino nlookup).known n) d' := by
      refine ⟨congrArg (· ++ [Reply.none]) hputs.replies, ?_⟩
      refine (hcounts.trans hd₁.noneFreed (.of_puts hd₁ hputs)).of_eq fun n ↦ ?_
      rw [hino, UInt64.add_zero]
      exact (UInt64.zero_add _).symm
    refine Ends.ret_bind ((hsxFuseRefDec_run hi nlookup).trans (if_pos hle)) ?_
    change Ends _ _ (if i.priv - nlookup = 0 then _ else _) _
    split
    · refine Ends.bind (.of_evolves (Puts.iput p) _) (fun es _ d' hputs ↦ ?_)
        fun _ _ _ _ ↦ trivial
      exact .of_ret rfl ⟨[.none], (hfinish hputs).1, fun _ ↦ (hfinish hputs).2.congr rfl rfl rfl⟩
    · have hputs := hfinish (.refl _)
      exact .of_ret rfl ⟨[.none], hputs.1, fun _ ↦ hputs.2.congr rfl rfl rfl⟩
  · exact Ends.fault_bind ((hsxFuseRefDec_run hi nlookup).trans (if_neg hle)) trivial

theorem tells_init {P : List Reply → Prop} {d : Daemon} (hd : d.CacheOk) (hroot : d.RootOk) :
    Tells P Request.init.known hsxFuseInit d := by
  obtain ⟨i, hi⟩ := hd.live _ hroot.mem
  have hino := hroot.ino i hi
  have hxchg := hsxFuseRefXchg_run hi 1
  change Ends _ _ (hsxFuseRefXchg d.sb.root 1 >>= fun ref ↦ assertThat .newRef (ref == 0)) d
  by_cases hzero : i.priv = 0
  · have hone : ({ i with priv := 1 } : Inode) = { i with priv := i.priv + 1 } := by
      rw [hzero]
      rfl
    rw [hzero, hone] at hxchg
    refine .ret_bind hxchg (.of_ret rfl ⟨[], (List.append_nil _).symm, fun _ ↦ ?_⟩)
    refine ((Counts.of_setPriv hd hroot.mem hi 1).of_eq fun n ↦ ?_).congr rfl rfl rfl
    rw [hino]
    exact (UInt64.zero_add _).symm
  · have hassert : assertThat .newRef (i.priv == 0) = Act.throw (.abort .newRef) := by
      simp [assertThat, hzero]
    refine .ret_bind hxchg ?_
    rw [hassert]
    exact .of_fault rfl trivial

/-! ## One request -/

/-- What has to be the case for the two counts to move together: a link is not answered with an
entry, and the listings that are sent do not contain the directory itself or its parent. -/
def Request.InStep : Request → List Reply → Prop
  | .link _ _ _, rs => ∀ r ∈ rs, r.Plain
  | .readdirplus _ _ _, rs => ∀ entries, .direntsPlus entries ∈ rs → ∀ e ∈ entries, e.NotDots
  | _, _ => True

section handlers

variable {P : List Reply → Prop} {d : Daemon} (hd : d.CacheOk)

include hd

/-- An operation that makes an object, and the answer. -/
theorem tells_new {x : Hs (Int × Addr)} {rep : EntryParam → Reply} (hx : Yields false d x)
    (hgrows : Evolves Grows x) (hsilent : Evolves Silent x)
    (hrep : ∀ e, (rep e).told = fun n ↦ if e.ino = n then 1 else 0) :
    Tells P (fun _ ↦ 0) (x >>= fun r ↦ replyNew rep r.1 r.2) d :=
  .object (answerNew rep) hd hx hgrows hsilent (fun hd hp hi ↦ tells_replyNew hd hp hi hrep)
    tells_replyNew_bad

theorem tells_mkdir (parent : UInt64) (name : Name) (mode : UInt32) :
    Tells P (fun _ ↦ 0) (hsxFuseMkdir parent name mode) d :=
  .ilookup hd (fun _ ↦ .of_plain hd (PlainFrame.plainly.pure ())) fun p _ _ hi ↦
    tells_new hd (.of_naming (ends_mkdir hd hi name mode)) (HandleFrame.grows.mkdir p name mode)
      (HandleFrame.silent.mkdir p name mode) fun _ ↦ rfl

theorem tells_mknod (parent : UInt64) (name : Name) (mode : UInt32) (rdev : UInt64) :
    Tells P (fun _ ↦ 0) (hsxFuseMknod parent name mode rdev) d :=
  .ilookup hd (fun _ ↦ .err hd _) fun p _ _ hi ↦
    tells_new hd (.of_naming (ends_mknod hd hi name mode rdev))
      (HandleFrame.grows.mknod p name mode rdev)
      (HandleFrame.silent.mknod p name mode rdev) fun _ ↦ rfl

theorem tells_symlink (link : Name) (parent : UInt64) (name : Name) :
    Tells P (fun _ ↦ 0) (hsxFuseSymlink link parent name) d :=
  .ilookup hd (fun _ ↦ .err hd _) fun p _ _ hi ↦
    tells_new hd (.of_naming (ends_symlink hd hi link name)) (HandleFrame.grows.symlink p link name)
      (HandleFrame.silent.symlink p link name) fun _ ↦ rfl

theorem tells_create (parent : UInt64) (name : Name) (mode flags uid gid : UInt32) :
    Tells P (fun _ ↦ 0) (hsxFuseCreate parent name mode flags uid gid) d := by
  refine .ilookup hd (fun _ ↦ .of_plain hd (PlainFrame.plainly.pure ())) fun p i _ hi ↦ ?_
  refine .after (Q := fun _ d' ↦ ∃ i, d'.heap p = some i) hd ?_ ?_
  · -- the owner of the parent is overwritten first
    refine .of_ret (update_run hi _) ⟨⟨?_, rfl, rfl, rfl, rfl⟩, _, d.setInode_heap_self p _⟩
    exact fun hd ↦ ⟨hd.setInode hi ⟨rfl, rfl, rfl, rfl, rfl⟩,
      .setInode hi ⟨rfl, rfl, rfl, rfl, rfl⟩ rfl⟩
  · rintro _ d' hd' ⟨j, hj⟩
    exact tells_new hd' (.of_naming (ends_create hd' hj name (createMode mode flags)))
      (HandleFrame.grows.create p name _) (HandleFrame.silent.create p name _) fun _ ↦ rfl

/-- **Every handler counts the lookups that the kernel is told of**, if the request is in step. -/
theorem Request.tells (hroot : d.RootOk) (rounds : Nat) (req : Request) :
    Tells req.InStep req.known (req.handle rounds) d := by
  cases req with
  | init => exact tells_init hd hroot
  | lookup parent name =>
      exact .ilookup hd (fun _ ↦ .err hd _) fun p _ _ hi ↦
        .object answerFound hd (.of_naming (ends_lookup hd hi name))
          (HandleFrame.grows.lookup p name) (HandleFrame.silent.lookup p name) tells_lookup
          tells_lookup_bad
  | mkdir parent name mode => exact tells_mkdir hd parent name mode
  | forget ino nlookup => exact tells_forget hd ino nlookup
  | symlink target parent name => exact tells_symlink hd target parent name
  | mknod parent name mode rdev => exact tells_mknod hd parent name mode rdev
  | link ino newparent newname => exact tells_link hd ino newparent newname
  | create parent name mode flags uid gid => exact tells_create hd parent name mode flags uid gid
  | readdirplus ino size off => exact tells_readdirPlus hd ino size.toUInt64 off
  | readdir ino size off =>
      exact .of_plain hd (PlainFrame.plainly.hsxFuseReaddir HandleFrame.plainly.readdir ino
        size.toUInt64 off)
  | _ => exact .of_plain hd (PlainFrame.plainly.handle rounds rfl rfl)

end handlers

/-! ## Whole sessions -/

/-- The count that the kernel keeps of the inode with number `n`. -/
def kernelCount : List Step → UInt64 → UInt64
  | [], _ => 0
  | s :: steps, n => kernelCount steps n + (toldBy s.replies n + s.req.known n)

/-- The kernel does not give back more than it has counted. -/
def Step.Honest (steps : List Step) (s : Step) : Prop :=
  ∀ ino nlookup, s.req = .forget ino nlookup → nlookup ≤ kernelCount steps ino

/-- What has to be the case at a step for the two counts to move together. -/
structure Step.InStep (steps : List Step) (s : Step) : Prop where
  honest : s.Honest steps
  live : s.before.NoneFreed
  inStep : s.req.InStep s.replies

/-- The lookup counts of the cached inodes are those of the kernel. -/
def Daemon.Agrees (d : Daemon) (count : UInt64 → UInt64) : Prop :=
  ∀ p ∈ d.sb.idTable, ∀ i, d.heap p = some i → i.priv = count i.ino

/-- What holds in all states of a session whose steps are in step. -/
structure Agreement (steps : List Step) (d : Daemon) : Prop where
  cacheOk : d.NoneFreed → d.CacheOk
  root : d.RootOk
  agrees : d.Agrees (kernelCount steps)
  known : d.NoneFreed → ∀ n, kernelCount steps n ≠ 0 → ∃ p ∈ d.sb.idTable, ∃ i, d.heap p = some i ∧
    i.ino = n

namespace Agreement

theorem mounted {d : Daemon} (hd : d.Mounted) : Agreement [] d where
  cacheOk := fun _ ↦ hd.extends_start.1
  root := hd.rootOk
  agrees := by
    intro p hp i hi
    obtain ⟨-, l, o, hext⟩ := hd.extends_start
    obtain ⟨j, hj, hpriv⟩ := hext.new p hp ((FhgetRun.booted_start l o).notMem p)
    obtain rfl := Option.some.inj (hi.symm.trans hj)
    exact hpriv
  known := fun _ _ h ↦ absurd rfl h

/-- A change of the counts that the kernel learns of. -/
theorem counts {steps : List Step} {s : Step} (h : Agreement steps s.before)
    (hlive : s.before.NoneFreed)
    (hc : s.before.Counts (fun n ↦ toldBy s.replies n + s.req.known n) s.after) :
    Agreement (s :: steps) s.after where
  cacheOk := hc.cacheOk
  root := by
    refine ⟨hc.root ▸ hc.mem _ h.root.mem, fun i' hi' ↦ ?_⟩
    rw [hc.root] at hi'
    obtain ⟨i, hi, hino, -⟩ := hc.keep _ h.root.mem i' hi'
    exact hino.trans (h.root.ino i hi)
  agrees := by
    intro p hp i' hi'
    by_cases hmem : p ∈ s.before.sb.idTable
    · obtain ⟨i, hi, hino, hpriv⟩ := hc.keep p hmem i' hi'
      rw [hpriv, hino, h.agrees p hmem i hi, kernelCount]
    · -- the kernel has not heard of a new inode before
      obtain ⟨hpriv, hnew⟩ := hc.new p hp hmem i' hi'
      have hzero : kernelCount steps i'.ino = 0 := by
        by_contra hne
        obtain ⟨q, hq, j, hj, hino⟩ := h.known hlive _ hne
        exact hnew q hq j hj hino
      rw [hpriv, kernelCount, hzero, UInt64.zero_add]
  known := by
    intro hlive' n hn
    by_cases hold : kernelCount steps n = 0
    · refine hc.numbered hlive' n fun hδ ↦ hn ?_
      rw [kernelCount, hold, UInt64.zero_add]
      exact hδ
    · obtain ⟨p, hp, i, hi, hino⟩ := h.known hlive n hold
      obtain ⟨i', hi'⟩ := Option.isSome_iff_exists.1 (hlive' p (hc.mem p hp))
      obtain ⟨j, hj, hino', -⟩ := hc.keep p hp i' hi'
      obtain rfl := Option.some.inj (hi.symm.trans hj)
      exact ⟨p, hc.mem p hp, i', hi', hino'.trans hino⟩

/-- **A step that is in step.** -/
theorem step {steps : List Step} {s : Step} (h : Agreement steps s.before)
    (hs : s.req.Handled s.before s.events s.after) (hok : s.InStep steps) :
    Agreement (s :: steps) s.after := by
  obtain ⟨rounds, hx⟩ := hs
  obtain ⟨rs, hrs, hc⟩ := (Request.tells (h.cacheOk hok.live) h.root rounds s.req).exec_ok hx
  have hreplies : s.replies = rs := by rw [Step.replies, hrs, List.drop_left]
  exact h.counts hok.live (hreplies ▸ hc (hreplies ▸ hok.inStep))

/-- **A session whose steps are in step.** -/
theorem session {steps : List Step} {d : Daemon}
    (h : Session (fun steps s ↦ s.InStep steps) steps d) :
    Agreement steps d := by
  induction h with
  | mounted hd => exact mounted hd
  | step _ hs hok ih => exact ih.step hs hok

end Agreement

/-- A kernel that does not give back more than it has counted does not run into the assertion. -/
theorem Daemon.Agrees.not_refDec {d : Daemon} {count : UInt64 → UInt64} (h : d.Agrees count)
    {ino nlookup : UInt64} (hle : nlookup ≤ count ino) {rounds : Nat} {d' : Daemon}
    {es : List Event} :
    ¬ Prog.Exec Server.record (((Request.forget ino nlookup).handle rounds).run d) []
      (.error (.abort .refDec), d') es := by
  intro hx
  have hwp : wp Server.record (hsxFuseForget ino nlookup) (fun _ _ _ ↦ True)
      (fun e _ _ ↦ e ≠ .abort .refDec) d [] := by
    unfold hsxFuseForget
    rw [wp_bind]
    rcases d.hsfsIlookup_cases ino with ⟨-, hrun⟩ | ⟨p, i, hl, hi, hrun⟩ | ⟨p, -, -, hrun⟩
    · rw [wp_of_ret hrun]
      rintro ⟨⟩
    · obtain ⟨hp, hino⟩ := ino_of_ilookup hl hi
      have hle' : nlookup ≤ i.priv := by rwa [h p hp i hi, hino]
      rw [wp_of_ret hrun, wp_bind, wp_of_ret ((hsxFuseRefDec_run hi nlookup).trans (if_pos hle'))]
      -- what follows has no assertion
      change wp Server.record (if i.priv - nlookup = 0 then _ else _) _ _ _ _
      split
      · rw [wp_bind]
        obtain ⟨d₁, hput⟩ : ∃ d₁, (hsfsIput p).run ((d.noted p).setInode p
            { i with priv := i.priv - nlookup }) = .ret (.ok (), d₁) := by
          by_cases hnull : p = Addr.null
          · exact ⟨_, by rw [hsfsIput, if_neg (fun h ↦ h hnull)]; rfl⟩
          · exact ⟨_, hsfsIput_run hnull (Daemon.setInode_heap_self _ _ _)⟩
        rw [wp_of_ret hput]
        trivial
      · trivial
    · rw [wp, hrun]
      rintro ⟨⟩
  exact (wp_iff_exec.1 hwp).2 _ _ _ hx rfl

/-- **The daemon and the kernel agree on the lookup counts in every session whose steps are in
step**, and the kernel does not run into the assertion of `hsx_fuse_ref_dec`. -/
theorem Session.lookups_agree {steps : List Step} {d : Daemon}
    (h : Session (fun steps s ↦ s.InStep steps) steps d) :
    d.Agrees (kernelCount steps) ∧
      ∀ (ino nlookup : UInt64) (rounds : Nat) (d' : Daemon) (es : List Event),
        nlookup ≤ kernelCount steps ino →
        ¬ Prog.Exec Server.record (((Request.forget ino nlookup).handle rounds).run d) []
          (.error (.abort .refDec), d') es :=
  ⟨(Agreement.session h).agrees, fun _ _ _ _ _ hle ↦ (Agreement.session h).agrees.not_refDec hle⟩

/-- A file is looked up twice and forgotten once. -/
theorem Session.lookups_agree_forget :
    ∃ steps d, Session (fun steps s ↦ s.InStep steps) steps d ∧ kernelCount steps 2 = 1 ∧
      d.Agrees (kernelCount steps) := by
  let ok : List Step → Step → Bool := fun steps s ↦ decide s.before.NoneFreed && match s.req with
    | .init | .lookup _ _ => true
    | .forget ino nlookup => decide (nlookup ≤ kernelCount steps ino)
    | _ => false
  have hplay : (sampleMount.bind fun d ↦ playSession ok sampleAnswer 0
      [.init, .lookup 1 [102], .lookup 1 [102], .forget 2 1] [] d).any
        (fun r ↦ kernelCount r.1 2 = 1) = true := by decide +kernel
  obtain ⟨⟨steps, d⟩, hplay, hone⟩ := (Option.any_eq_true _ _).1 hplay
  obtain ⟨d₀, hd₀, hplay⟩ := Option.bind_eq_some_iff.1 hplay
  have hs : Session (fun steps s ↦ s.InStep steps) steps d := by
    refine (Session.of_play (.mounted (mounted_of_play hd₀)) hplay).mono fun steps s hok ↦ ?_
    obtain ⟨before, req, es, after⟩ := s
    obtain ⟨hfree, hreq⟩ := Bool.and_eq_true_iff.1 hok
    cases req with
    | init => exact ⟨nofun, of_decide_eq_true hfree, trivial⟩
    | lookup _ _ => exact ⟨nofun, of_decide_eq_true hfree, trivial⟩
    | forget ino nlookup =>
        refine ⟨?_, of_decide_eq_true hfree, trivial⟩
        rintro _ _ ⟨⟩
        exact of_decide_eq_true hreq
    | _ => exact nomatch hreq
  exact ⟨steps, d, hs, of_decide_eq_true hone, (Session.lookups_agree hs).1⟩

/-- A link to a file is made: the kernel counts the answer, the daemon does not. -/
theorem Session.not_lookups_agree :
    ¬ ∀ steps d, Session (fun steps s ↦ s.Honest steps) steps d → d.Agrees (kernelCount steps) := by
  intro h
  let ok : List Step → Step → Bool := fun _ s ↦ match s.req with
    | .forget _ _ => false
    | _ => true
  have hplay : (sampleMount.bind fun d ↦ playSession ok sampleAnswer 0
      [.init, .lookup 1 [102], .link 2 1 [103]] [] d).any
        (fun r ↦ decide (0x20000 ∈ r.2.sb.idTable) && (r.2.heap 0x20000).any fun i ↦
          i.priv != kernelCount r.1 i.ino) = true := by decide +kernel
  obtain ⟨⟨steps, d⟩, hplay, hne⟩ := (Option.any_eq_true _ _).1 hplay
  obtain ⟨d₀, hd₀, hplay⟩ := Option.bind_eq_some_iff.1 hplay
  obtain ⟨hmem, hne⟩ := Bool.and_eq_true_iff.1 hne
  obtain ⟨i, hi, hne⟩ := (Option.any_eq_true _ _).1 hne
  have hs : Session (fun steps s ↦ s.Honest steps) steps d := by
    refine (Session.of_play (.mounted (mounted_of_play hd₀)) hplay).mono fun steps s hok ↦ ?_
    intro ino nlookup hreq
    obtain ⟨before, req, es, after⟩ := s
    cases hreq
    exact nomatch hok
  exact bne_iff_ne.1 hne (h steps d hs 0x20000 (of_decide_eq_true hmem) i hi)

end Hsfs
