import Hsfs.Nfs3.Fetch

/-!
# Listing a directory with its objects

`hsi_nfs3_readdir_plus` gets an inode for every entry of the reply, and gives up if there is no
memory for a name or an entry has no handle.  An error pointer does not make it give up.

`Daemon.Listed` follows the loop over the entries.  What comes out of it is a comparison of two
prefixes: the inodes of the first entries are all cached exactly if the server has described all of
these entries well and memory was denied to none of them.  It has to be about prefixes, since an
object that memory was denied to may be entered later, for another entry.
-/

namespace Hsfs

open Interact Interact.Act Daemon

/-! ## What the loop is told -/

/-- The objects for which there was no memory. -/
def denials (es : List Event) : List (UInt64 × NfsFh) := es.filterMap deniedObject

@[simp] theorem denials_append (es es' : List Event) :
    denials (es ++ es') = denials es ++ denials es' := List.filterMap_append

/-- There was no memory for something other than an inode. -/
def isShort : Event → Bool
  | ⟨.malloc, b⟩ => !b
  | _ => false

/-- The listing in a reply. -/
def listingOf : (req : Rpc) → req.Res → Option Readdirplus3resok
  | .readdirplus _ _ _ _ _, .ok resok => some resok
  | _, _ => none

/-- The listing in an event. -/
def listing : Event → Option Readdirplus3resok
  | ⟨.clntCall _ req, .done res⟩ => listingOf req res
  | _ => none

/-- The listings that came in. -/
def listings (es : List Event) : List Readdirplus3resok := es.filterMap listing

@[simp] theorem listings_append (es es' : List Event) :
    listings (es ++ es') = listings es ++ listings es' := List.filterMap_append

/-- The name that the context of an entry gets. -/
def Entryplus3.ctxName (entry : Entryplus3) : Name := (cString entry.name).take 255

/-- The attributes of an entry. -/
def Entryplus3.fattr (entry : Entryplus3) : NfsFattr :=
  hsiNfs3Post2fattr entry.nameAttributes NfsFattr.fresh

/-- The server has described the object of the entry, and its inode was not among those that
memory was denied to. -/
def EntryOk (denied : List (UInt64 × NfsFh)) (entry : Entryplus3) : Prop :=
  usableObject entry.nameHandle entry.nameAttributes = true ∧
    ∀ fh, entry.nameHandle = some fh → (entry.fattr.fileid, fh) ∉ denied

/-! ## The loop -/

/-- The loop over the entries of a listing that runs to its end. -/
inductive Daemon.Listed : Daemon → List Entryplus3 → List Event → List ReaddirCtx → Daemon → Prop
  | nil {d : Daemon} : Listed d [] [] [] d
  | cons {d d₁ d' : Daemon} {entry : Entryplus3} {entries : List Entryplus3} {fh : NfsFh}
      {es es' : List Event} {new : Addr} {cs : List ReaddirCtx} :
      entry.nameHandle = some fh → d.Fetched fh entry.fattr es new d₁ →
      Listed d₁ entries es' cs d' →
      Listed d (entry :: entries) (⟨.malloc, true⟩ :: ⟨.malloc, true⟩ :: es ++ es')
        (⟨entry.cookie, entry.ctxName, entry.fileid, new⟩ :: cs) d'

namespace Daemon.Fetched

variable {d d' : Daemon} {fh : NfsFh} {fattr : NfsFattr} {es : List Event} {p : Addr}

/-- The only call is for the memory of an inode. -/
theorem not_isShort (h : d.Fetched fh fattr es p d') : es.any isShort = false := by
  cases h <;> rfl

theorem listings_eq_nil (h : d.Fetched fh fattr es p d') : listings es = [] := by
  cases h <;> rfl

end Daemon.Fetched

namespace Daemon.Listed

variable {d d' : Daemon} {entries : List Entryplus3} {es : List Event} {cs : List ReaddirCtx}

theorem extends_ (h : d.Listed entries es cs d') : d.Extends d' := by
  induction h with
  | nil => exact .refl _
  | cons _ hfetched _ ih => exact hfetched.fhget.extends_.trans ih

theorem cacheOk (h : d.Listed entries es cs d') (hd : d.CacheOk) : d'.CacheOk := by
  induction h with
  | nil => exact hd
  | cons _ hfetched _ ih => exact ih (hfetched.fhget.cacheOk hd)

theorem names (h : d.Listed entries es cs d') :
    cs.map ReaddirCtx.name = entries.map Entryplus3.ctxName := by
  induction h with
  | nil => rfl
  | cons _ _ _ ih => rw [List.map_cons, List.map_cons, ih]

/-- It runs to its end if there is memory and every entry has a handle. -/
theorem not_isShort (h : d.Listed entries es cs d') : es.any isShort = false := by
  induction h with
  | nil => rfl
  | cons _ hfetched _ ih =>
      rw [List.any_append, ih, Bool.or_false]
      exact hfetched.not_isShort

theorem listings_eq_nil (h : d.Listed entries es cs d') : listings es = [] := by
  induction h with
  | nil => rfl
  | @cons _ _ _ _ _ _ es es' _ _ _ hfetched _ ih =>
      change listings (es ++ es') = []
      rw [listings_append, hfetched.listings_eq_nil, ih]
      rfl

theorem handles (h : d.Listed entries es cs d') : ∀ entry ∈ entries, entry.nameHandle ≠ none := by
  induction h with
  | nil => exact fun _ he ↦ absurd he List.not_mem_nil
  | cons hfh _ _ ih =>
      rintro entry he
      rcases List.mem_cons.1 he with rfl | he
      · exact hfh ▸ Option.some_ne_none _
      · exact ih entry he

/-- No memory is denied to an object whose inode is cached. -/
theorem notMem_denials (h : d.Listed entries es cs d') {q : Addr} {fileid : UInt64} {fh : NfsFh}
    (hq : d.Holds q fileid fh) : (fileid, fh) ∉ denials es := by
  induction h with
  | nil => exact List.not_mem_nil
  | @cons d d₁ _ _ _ _ es _ _ _ _ hfetched _ ih =>
      intro hmem
      change (fileid, fh) ∈ denials (es ++ _) at hmem
      rw [denials_append] at hmem
      rcases List.mem_append.1 hmem with hmem | hmem
      · obtain ⟨e, he, hden⟩ := List.mem_filterMap.1 hmem
        exact hfetched.deniedObject_ne hq he hden
      · exact ih (hfetched.fhget.extends_.holds hq) hmem

/-- The inodes are cached, or error pointers. -/
theorem mem_or_bad (h : d.Listed entries es cs d') :
    ∀ c ∈ cs, c.inode ∈ d'.sb.idTable ∨ d'.BadPtr c.inode := by
  induction h with
  | nil => exact fun _ hc ↦ absurd hc List.not_mem_nil
  | cons _ hfetched hrest ih =>
      intro c hc
      rcases List.mem_cons.1 hc with rfl | hc
      · have hl := hrest.extends_.layout.trans hfetched.fhget.extends_.layout
        rcases hfetched.fhget.holds with hbad | hgood
        · exact .inr ⟨hl ▸ hbad.nearBad, hbad.notErr, hbad.ne_null⟩
        · exact .inl (hrest.extends_.mem _ hgood.1)
      · exact ih c hc

end Daemon.Listed

/-- An error pointer is not in the table. -/
theorem Daemon.CacheOk.notMem_of_bad {d : Daemon} (hd : d.CacheOk) {e : Addr}
    (h : d.layout.nearBad e = true) : e ∉ d.sb.idTable := by
  intro he
  obtain ⟨i, hi⟩ := hd.live e he
  exact Bool.false_ne_true ((hd.not_nearBad hi).symm.trans h)

/-- An error pointer is not the address of an inode. -/
theorem Daemon.CacheOk.heap_of_bad {d : Daemon} (hd : d.CacheOk) {e : Addr}
    (h : d.layout.nearBad e = true) : d.heap e = none := by
  by_contra hsome
  obtain ⟨i, hi⟩ := Option.ne_none_iff_exists'.1 hsome
  exact Bool.false_ne_true ((hd.not_nearBad hi).symm.trans h)

/-- **The inodes of the first entries are all cached if and only if the first entries were all
described well and not denied.** -/
theorem Daemon.Listed.take_mem_iff {d d' : Daemon} {entries : List Entryplus3} {es : List Event}
    {cs : List ReaddirCtx} (h : d.Listed entries es cs d') (hd : d.CacheOk) (n : Nat) :
    (∀ c ∈ cs.take n, c.inode ∈ d'.sb.idTable) ↔
      ∀ entry ∈ entries.take n, EntryOk (denials es) entry := by
  induction h generalizing n with
  | nil => simp
  | @cons d d₁ d' entry entries fh es es' new cs hfh hfetched hrest ih =>
      have hd₁ := hfetched.fhget.cacheOk hd
      cases n with
      | zero => simp
      | succ n =>
          rw [List.take_succ_cons, List.take_succ_cons, List.forall_mem_cons, List.forall_mem_cons]
          change _ ↔ EntryOk (denials (es ++ es')) entry ∧
            ∀ entry ∈ entries.take n, EntryOk (denials (es ++ es')) entry
          rw [denials_append]
          have husable : entry.fattr.Usable ↔
              usableObject entry.nameHandle entry.nameAttributes = true := by
            rw [hfh]
            exact usable_post2fattr_iff fh
          rcases hfetched.good_or_bad with ⟨hgood, hu, hnone⟩ | ⟨hbad, -, hcause⟩
          · -- nothing was denied for this entry, and nothing will be
            have hes : denials es = [] := List.filterMap_eq_nil_iff.2 hnone
            rw [hes, List.nil_append]
            refine and_congr (iff_of_true (hrest.extends_.mem _ hgood.1) ?_) (ih hd₁ n)
            refine ⟨husable.1 hu, fun fh' hfh' ↦ ?_⟩
            obtain rfl := Option.some.inj (hfh.symm.trans hfh')
            exact hrest.notMem_denials hgood
          · -- the error pointer is not in the table, and the entry is not as it should be
            have hnot : new ∉ d'.sb.idTable := by
              have hl := hrest.extends_.layout.trans hfetched.fhget.extends_.layout
              exact (hrest.cacheOk hd₁).notMem_of_bad (hl ▸ hbad.nearBad)
            refine iff_of_false (fun h ↦ hnot h.1) ?_
            rintro ⟨⟨hok, hden⟩, -⟩
            rcases hcause with hu | ⟨e, he, heq⟩
            · exact hu (husable.2 hok)
            · exact hden fh hfh (List.mem_append_left _ (List.mem_filterMap.2 ⟨e, he, heq⟩))

/-- How the loop over the entries ends, with the contexts that it started with. -/
inductive Daemon.ListEnd (d : Daemon) (entries : List Entryplus3) (ctx : List ReaddirCtx) :
    List Event → Except (Int × List ReaddirCtx) (List ReaddirCtx) → Daemon → Prop
  /-- It has run to its end. -/
  | all {es : List Event} {cs : List ReaddirCtx} {d' : Daemon} : d.Listed entries es cs d' →
      ListEnd d entries ctx es (.ok (ctx ++ cs)) d'
  /-- It has given up at some entry. -/
  | gaveUp {es es' : List Event} {listed : List Entryplus3} {cs : List ReaddirCtx} {d' : Daemon}
      {err : Int} : d.Listed listed es cs d' → listed.length ≤ entries.length → err ≠ 0 →
      (es'.any isShort = true ∨ ∃ entry ∈ entries, entry.nameHandle = none) → listings es' = [] →
      ListEnd d entries ctx (es ++ es') (.error (err, ctx ++ cs)) d'

/-- The first entry, and how the loop ends after it. -/
theorem Daemon.ListEnd.cons {d d₁ d' : Daemon} {entry : Entryplus3} {entries : List Entryplus3}
    {fh : NfsFh} {es es' : List Event} {new : Addr} {ctx : List ReaddirCtx}
    {r : Except (Int × List ReaddirCtx) (List ReaddirCtx)} (hfh : entry.nameHandle = some fh)
    (hfetched : d.Fetched fh entry.fattr es new d₁)
    (h : d₁.ListEnd entries (ctx ++ [⟨entry.cookie, entry.ctxName, entry.fileid, new⟩]) es' r d') :
    d.ListEnd (entry :: entries) ctx (⟨.malloc, true⟩ :: ⟨.malloc, true⟩ :: es ++ es') r d' := by
  cases h with
  | all hlisted =>
      rw [List.append_assoc]
      exact .all (.cons hfh hfetched hlisted)
  | @gaveUp es₁ es₂ listed cs d' err hlisted hlen herr hcause hnil =>
      rw [List.append_assoc]
      rw [← List.append_assoc]
      exact .gaveUp (.cons hfh hfetched hlisted) (Nat.succ_le_succ hlen) herr
        (hcause.imp id fun ⟨e, he, h⟩ ↦ ⟨e, List.mem_cons_of_mem _ he, h⟩) hnil

/-- There is memory for the context and the name of an entry, or there is not. -/
theorem wp_allocCopyName {d : Daemon} {name : Name} {tr : List Event}
    {Q : Option Name → Daemon → List Event → Prop} {E : Fault → Daemon → List Event → Prop}
    (hnone : ∀ es, es.any isShort = true → listings es = [] → Q none d (tr ++ es))
    (hsome : Q (some ((cString name).take 255)) d (tr ++ [⟨.malloc, true⟩, ⟨.malloc, true⟩])) :
    wp Server.record (allocCopyName name) Q E d tr := by
  refine fun (got : Bool) _ hgot ↦ ?_
  subst hgot
  cases got with
  | false => exact hnone [⟨.malloc, false⟩] rfl rfl
  | true =>
      refine fun (got : Bool) _ hgot ↦ ?_
      subst hgot
      rw [List.append_assoc]
      cases got with
      | false => exact hnone [⟨.malloc, true⟩, ⟨.malloc, false⟩] rfl rfl
      | true => exact hsome

/-- **The loop over the entries runs to its end or gives up.** -/
theorem Daemon.CacheOk.wp_readdirPlusEntries {d : Daemon} (hd : d.CacheOk)
    (entries : List Entryplus3) (ctx : List ReaddirCtx) (tr : List Event) :
    wp Server.record (readdirPlusEntries entries ctx)
      (fun r d' tr' ↦ ∃ es, tr' = tr ++ es ∧ d.ListEnd entries ctx es r d') (fun _ _ _ ↦ False)
      d tr := by
  induction entries generalizing d ctx tr with
  | nil =>
      refine ⟨[], (List.append_nil tr).symm, ?_⟩
      have h : d.ListEnd [] ctx [] (.ok (ctx ++ [])) d := .all .nil
      rwa [List.append_nil] at h
  | cons entry entries ih =>
      -- giving up at this entry
      have hstop (es : List Event) {err : Int} (herr : err ≠ 0)
          (hcause : es.any isShort = true ∨ entry.nameHandle = none) (hes : listings es = []) :
          d.ListEnd (entry :: entries) ctx es (.error (err, ctx)) d := by
        have h : d.ListEnd (entry :: entries) ctx ([] ++ es) (.error (err, ctx ++ [])) d :=
          .gaveUp .nil (Nat.zero_le _) herr
            (hcause.imp id fun h ↦ ⟨entry, List.mem_cons_self, h⟩) hes
        rwa [List.append_nil] at h
      unfold readdirPlusEntries
      rw [wp_bind]
      refine wp_allocCopyName (fun es hshort hes ↦ ?_) ?_
      · exact ⟨es, rfl, hstop es (by decide) (.inl hshort) hes⟩
      cases hfh : entry.nameHandle with
      | none => exact ⟨_, rfl, hstop _ (by decide) (.inr hfh) rfl⟩
      | some fh =>
          rw [wp_bind]
          refine wp_mono ?_ (fun _ _ _ h ↦ h) (hd.wp_fetched fh entry.fattr _)
          rintro new d₁ _ ⟨es, rfl, hfetched⟩
          have hd₁ := hfetched.fhget.cacheOk hd
          have herr : isErr new = false := by
            rcases hfetched.fhget.holds with hbad | hgood
            · exact hbad.notErr
            · exact hd₁.isErr_eq_false hgood.1
          rw [herr, if_neg Bool.false_ne_true]
          refine wp_mono ?_ (fun _ _ _ h ↦ h) (ih hd₁ _ _)
          rintro r d' _ ⟨es', rfl, hend⟩
          refine ⟨_, ?_, hend.cons hfh hfetched⟩
          simp

/-! ## Giving up -/

/-- What putting inodes does: it makes no call, and it changes counts of references or frees
inodes. -/
structure Puts (d : Daemon) (es : List Event) (d' : Daemon) : Prop extends Silent d es d' where
  events : es = []
  idTable : d'.sb.idTable = d.sb.idTable
  fhTable : d'.sb.fhTable = d.sb.fhTable
  heap : ∀ p i', d'.heap p = some i' → ∃ i count, d.heap p = some i ∧ i' = { i with iCount :=
    count }

namespace Puts

theorem refl (d : Daemon) : Puts d [] d :=
  ⟨⟨rfl, rfl, rfl, rfl⟩, rfl, rfl, rfl, fun _ i hi ↦ ⟨i, i.iCount, hi, rfl⟩⟩

theorem composes : Composes Puts where
  nil := refl
  append := by
    intro d d' d'' es es' h h'
    refine ⟨Silent.composes.append h.toSilent h'.toSilent, ?_, h'.idTable.trans h.idTable,
      h'.fhTable.trans h.fhTable, ?_⟩
    · rw [h.events, h'.events]
      rfl
    · intro p i'' hi''
      obtain ⟨i', count', hi', rfl⟩ := h'.heap p i'' hi''
      obtain ⟨i, count, hi, rfl⟩ := h.heap p i' hi'
      exact ⟨i, count', hi, rfl⟩

theorem load (p : Addr) : Evolves Puts (load p) := by
  refine .get_bind fun d ↦ ?_
  cases d.heap p with
  | some i => exact .pure composes i
  | none => exact .ite (.pure composes _) (.throw composes _)

theorem setCount (p : Addr) (count : Int32) :
    Evolves Puts (update p fun i ↦ { i with iCount := count }) := by
  refine evolves_update composes fun d i hi ↦ ⟨⟨rfl, rfl, rfl, rfl⟩, rfl, rfl, rfl, fun q j hj ↦ ?_⟩
  by_cases hq : q = p
  · subst hq
    rw [d.setInode_heap_self] at hj
    exact ⟨i, count, hi, (Option.some.inj hj).symm⟩
  · rw [d.setInode_heap_of_ne hq] at hj
    exact ⟨j, j.iCount, hj, rfl⟩

theorem free (d : Daemon) (p : Addr) : Puts d [] (d.free p) :=
  ⟨⟨rfl, rfl, rfl, rfl⟩, rfl, rfl, rfl,
    fun _ i hi ↦ ⟨i, i.iCount, (free_heap_eq_some.1 hi).2, rfl⟩⟩

theorem iput (p : Addr) : Evolves Puts (hsfsIput p) :=
  .ite (.bind composes (load p) fun _ ↦ .bind composes (setCount p _) fun _ ↦
    .ite (.bind composes (load p) fun _ ↦ .ite (.modify fun d ↦ free d p) (.pure composes _))
      (.pure composes _)) (.pure composes _)

theorem freeCtx (cs : List ReaddirCtx) : Evolves Puts (freeCtx cs) := by
  induction cs with
  | nil => exact .pure composes _
  | cons c cs ih => exact .bind composes (iput c.inode) fun _ ↦ ih

end Puts

/-- **If no cached inode has been freed, the cache is in order.** -/
theorem Puts.cacheOk {d d' : Daemon} {es : List Event} (h : Puts d es d') (hd : d.CacheOk)
    (hlive : d'.NoneFreed) : d'.CacheOk := by
  have hheap : ∀ p ∈ d.sb.idTable, ∃ i count, d.heap p = some i ∧
      d'.heap p = some { i with iCount := count } := by
    intro p hp
    obtain ⟨i', hi'⟩ := Option.isSome_iff_exists.1 (hlive p (h.idTable ▸ hp))
    obtain ⟨i, count, hi, rfl⟩ := h.heap p i' hi'
    exact ⟨i, count, hi, hi'⟩
  have hino : ∀ p ∈ d.sb.idTable, d'.inoOf p = d.inoOf p := by
    intro p hp
    obtain ⟨i, count, hi, hi'⟩ := hheap p hp
    rw [inoOf_eq hi, inoOf_eq hi']
  have hfileid : ∀ p ∈ d.sb.idTable, d'.fileidOf p = d.fileidOf p := by
    intro p hp
    obtain ⟨i, count, hi, hi'⟩ := hheap p hp
    rw [fileidOf_eq hi, fileidOf_eq hi']
  refine ⟨⟨?_, ?_, ?_, ?_⟩, ?_, ?_, ?_, ?_⟩
  · exact fun p hp ↦ Option.isSome_iff_exists.1 (hlive p hp)
  · intro p i' hi'
    obtain ⟨i, _, hi, -⟩ := h.heap p i' hi'
    exact h.layout ▸ hd.place p i hi
  · rw [h.idTable]
    exact hd.placed.congr fun p hp ↦ by rw [hino p hp]
  · intro p hp q hq heq
    rw [h.idTable] at hp hq
    rw [hino p hp, hino q hq] at heq
    exact hd.inj p hp q hq heq
  · rw [h.idTable, h.fhTable]
    exact hd.same
  · rw [h.fhTable]
    exact hd.fhPlaced.congr fun p hp ↦ by rw [hfileid p ((hd.same p).1 hp)]
  · intro p hp i' hi'
    obtain ⟨i, _, hi, rfl⟩ := h.heap p i' hi'
    have hready := hd.ready p (h.idTable ▸ hp) i hi
    exact ⟨hready.numbered, hready.notStale, hready.notNew⟩
  · intro p hp q hq i' j' hi' hj' hid hfh
    obtain ⟨i, _, hi, rfl⟩ := h.heap p i' hi'
    obtain ⟨j, _, hj, rfl⟩ := h.heap q j' hj'
    exact hd.keyInj p (h.idTable ▸ hp) q (h.idTable ▸ hq) i j hi hj hid hfh

/-- No inode is freed when inodes are put `n` times.  The count of references starts at zero and
only goes down, so that it takes some four billion puts to get it to one. -/
def Daemon.Outlasts (d : Daemon) (n : Nat) : Prop :=
  ∀ p i, d.heap p = some i → ∀ k, 0 < k → k ≤ n → i.iCount ≠ Int32.ofNat k

namespace Daemon.Outlasts

variable {d : Daemon} {n : Nat} {p : Addr} {i j : Inode}

theorem mono {m : Nat} (h : d.Outlasts n) (hm : m ≤ n) : d.Outlasts m :=
  fun p i hi k hk hkm ↦ h p i hi k hk (hkm.trans hm)

theorem congr {d' : Daemon} (h : d.Outlasts n) (hh : d'.heap = d.heap) : d'.Outlasts n :=
  fun p i hi ↦ h p i (hh ▸ hi)

/-- An inode is overwritten with one that lasts as long. -/
theorem setInode (h : d.Outlasts n) (hj : ∀ k, 0 < k → k ≤ n → j.iCount ≠ Int32.ofNat k) :
    (d.setInode p j).Outlasts n := by
  intro q k hk
  by_cases hq : q = p
  · subst hq
    rw [d.setInode_heap_self] at hk
    exact Option.some.inj hk ▸ hj
  · rw [d.setInode_heap_of_ne hq] at hk
    exact h q k hk

theorem fetched {d' : Daemon} {fh : NfsFh} {fattr : NfsFattr} {es : List Event} (h : d.Outlasts n)
    (hn : n < 2 ^ 32) (hf : d.Fetched fh fattr es p d') : d'.Outlasts n := by
  cases hf with
  | unusable _ _ => exact h
  | denied _ _ _ => exact h
  | @found p i _ _ hi _ _ =>
      refine h.setInode ?_
      have hcount : (i.refreshed fattr).iCount = i.iCount := by
        unfold Inode.refreshed
        split <;> rfl
      exact hcount ▸ h p i hi
  | new _ _ _ =>
      refine (h.setInode (p := _) (j := newInode d.sb ⟨fh, fattr⟩ _) fun k hk hkn hcount ↦ ?_).congr
        rfl
      have hzero : (0 : Int32) = Int32.ofNat k := hcount
      have hbits := congrArg Int32.toBitVec hzero
      simp only [Int32.toBitVec_ofNat', Int32.toBitVec_zero] at hbits
      bv_omega

theorem listed {d' : Daemon} {entries : List Entryplus3} {es : List Event} {cs : List ReaddirCtx}
    (h : d.Outlasts n) (hn : n < 2 ^ 32) (hl : d.Listed entries es cs d') : d'.Outlasts n := by
  induction hl with
  | nil => exact h
  | cons _ hfetched _ ih => exact ih (h.fetched hn hfetched)

/-- Putting an inode or an error pointer. -/
theorem iput (h : d.Outlasts (n + 1)) (hp : d.heap p ≠ none ∨ d.layout.nearBad p = true) :
    ∃ d', (hsfsIput p).run d = .ret (.ok (), d') ∧ d'.layout = d.layout ∧ d'.Outlasts n ∧
      ∀ q, d.heap q ≠ none → d'.heap q ≠ none := by
  unfold hsfsIput
  by_cases hnull : p = Addr.null
  · exact ⟨d, by simp [hnull], rfl, h.mono (Nat.le_succ n), fun _ h ↦ h⟩
  cases hi : d.heap p with
  | some i =>
      have hone : i.iCount - 1 ≠ 0 := by
        intro hzero
        refine h p i hi 1 Nat.one_pos (Nat.succ_le_succ (Nat.zero_le n)) ?_
        change i.iCount = 1
        grind
      refine ⟨d.setInode p { i with iCount := i.iCount - 1 }, ?_, rfl, ?_, fun q hq ↦ ?_⟩
      · simp [hnull, load_run hi, update_run hi, hone]
      · refine (h.mono (Nat.le_succ n)).setInode fun k hk hkn hcount ↦ ?_
        refine h p i hi (k + 1) (Nat.succ_pos k) (Nat.succ_le_succ hkn) ?_
        have hcount : i.iCount - 1 = Int32.ofNat k := hcount
        rw [Int32.ofNat_add]
        grind
      · by_cases hqp : q = p
        · subst hqp
          rw [d.setInode_heap_self]
          exact Option.some_ne_none _
        · rwa [d.setInode_heap_of_ne hqp]
  | none =>
      have hbad := hp.resolve_left (· hi)
      refine ⟨d, ?_, rfl, h.mono (Nat.le_succ n), fun _ h ↦ h⟩
      have hzero : Inode.zero.iCount - 1 ≠ 0 := by decide
      simp [hnull, load, update, hi, hbad, hzero]

/-- **The contexts of a listing that has been given up are freed.** -/
theorem freeCtx {cs : List ReaddirCtx} (h : d.Outlasts cs.length)
    (hcs : ∀ c ∈ cs, d.heap c.inode ≠ none ∨ d.layout.nearBad c.inode = true) :
    ∃ d', (freeCtx cs).run d = .ret (.ok (), d') ∧ ∀ q, d.heap q ≠ none → d'.heap q ≠ none := by
  induction cs generalizing d with
  | nil => exact ⟨d, rfl, fun _ h ↦ h⟩
  | cons c cs ih =>
      obtain ⟨d₁, hrun, hl, hout, hlive⟩ := h.iput (hcs c List.mem_cons_self)
      obtain ⟨d', hrest, hlive'⟩ := ih hout fun c hc ↦ (hcs c (List.mem_cons_of_mem _ hc)).imp
        (hlive c.inode) fun hbad ↦ hl ▸ hbad
      exact ⟨d', by rw [Hsfs.freeCtx, run_bind_of_ret hrun, hrest],
        fun q hq ↦ hlive' q (hlive q hq)⟩

end Daemon.Outlasts

/-! ## The operation -/

/-- The directory takes the attributes that come with a listing. -/
def Inode.acceptsDir (i : Inode) (dirAttributes : Option Fattr3) : Bool :=
  let fattr := hsiNfs3Post2fattr dirAttributes NfsFattr.fresh
  !fattr.isValid || i.accepts fattr

/-- Nothing makes the operation give the listing up. -/
structure Deliverable (dir : Inode) (es : List Event) (resok : Readdirplus3resok) : Prop where
  accepted : dir.acceptsDir resok.dirAttributes = true
  memory : es.any isShort = false
  handles : ∀ entry ∈ resok.entries, entry.nameHandle ≠ none

/-- The contexts of a listing, in the state in which they are returned. -/
structure Daemon.ListedAs (d : Daemon) (entries : List Entryplus3) (denied : List (UInt64 × NfsFh))
    (cs : List ReaddirCtx) : Prop where
  cacheOk : d.CacheOk
  names : cs.map ReaddirCtx.name = entries.map Entryplus3.ctxName
  mem_or_bad : ∀ c ∈ cs, c.inode ∈ d.sb.idTable ∨ d.BadPtr c.inode
  take_mem_iff : ∀ n, (∀ c ∈ cs.take n, c.inode ∈ d.sb.idTable) ↔
    ∀ entry ∈ entries.take n, EntryOk denied entry

/-- No inode is freed when the listing is given up. -/
def Daemon.OutlastsListings (d : Daemon) (es : List Event) : Prop :=
  ∀ resok ∈ listings es, resok.entries.length < 2 ^ 32 ∧ d.Outlasts resok.entries.length

/-- What `hsi_nfs3_readdir_plus` returns and leaves behind, for a directory `dir`. -/
inductive Daemon.ReaddirPlus (d : Daemon) (dir : Inode) :
    List Event → Int → List ReaddirCtx → Daemon → Prop
  /-- There is no listing, or it has been given up. -/
  | failed {es : List Event} {err : Int} {d₁ d' : Daemon} : err ≠ 0 →
      (∀ resok ∈ listings es, ¬ Deliverable dir es resok) → d.Extends d₁ → d₁.CacheOk →
      Puts d₁ [] d' → (d.OutlastsListings es → d'.NoneFreed) → ReaddirPlus d dir es err [] d'
  /-- There is a listing. -/
  | listed {es : List Event} {resok : Readdirplus3resok} {cs : List ReaddirCtx} {d' : Daemon} :
      listings es = [resok] → Deliverable dir es resok → d.Extends d' →
      d'.ListedAs resok.entries (denials es) cs → ReaddirPlus d dir es 0 cs d'

theorem isAttempt_quiet {e : Event} (h : isAttempt e = true) :
    deniedObject e = none ∧ isShort e = false ∧ listing e = none := by
  obtain ⟨_, _, _, rfl⟩ | ⟨_, _, rfl⟩ | ⟨_, _, rfl⟩ := isAttempt_cases h <;>
    exact ⟨rfl, rfl, rfl⟩

/-- What a call has to do with listings. -/
theorem CallEvents.listings_eq {req : Rpc} {es : List Event} {res : Except Int req.Res}
    (h : CallEvents req es res) : denials es = [] ∧ es.any isShort = false ∧
      listings es = match res with
        | .ok r => (listingOf req r).toList
        | .error _ => [] := by
  have hnone {es : List Event} (hes : ∀ e ∈ es, isAttempt e = true) :
      denials es = [] ∧ es.any isShort = false ∧ listings es = [] := by
    refine ⟨List.filterMap_eq_nil_iff.2 fun e he ↦ (isAttempt_quiet (hes e he)).1, ?_,
      List.filterMap_eq_nil_iff.2 fun e he ↦ (isAttempt_quiet (hes e he)).2.2⟩
    exact List.any_eq_false.2 fun e he ↦ by simp [(isAttempt_quiet (hes e he)).2.1]
  cases h with
  | error hes => exact hnone hes
  | reply clnt r hes =>
      obtain ⟨hden, hshort, hlist⟩ := hnone hes
      rw [denials_append, hden, List.any_append, hshort, listings_append, hlist, List.nil_append,
        List.nil_append, Bool.false_or]
      refine ⟨rfl, rfl, ?_⟩
      change List.filterMap listing [_] = (listingOf req r).toList
      cases hl : listingOf req r with
      | none => exact List.filterMap_cons_none hl
      | some resok => exact List.filterMap_cons_some hl

/-- The attributes of the directory are refreshed, or they are of something else. -/
theorem nfsRefreshInode_dir {d : Daemon} {p : Addr} {i : Inode} (hi : d.heap p = some i)
    (attrs : Option Fattr3) :
    (i.acceptsDir attrs = false ∧
      (nfsRefreshInode p (hsiNfs3Post2fattr attrs NfsFattr.fresh)).run d =
        .ret (.ok (-Errno.stale), d)) ∨
    (i.acceptsDir attrs = true ∧ ∃ j, Inode.SameCore i j ∧
      (nfsRefreshInode p (hsiNfs3Post2fattr attrs NfsFattr.fresh)).run d =
        .ret (.ok 0, d.setInode p j)) := by
  rw [nfsRefreshInode_run hi]
  unfold Inode.acceptsDir
  cases hv : (hsiNfs3Post2fattr attrs NfsFattr.fresh).isValid with
  | false =>
      refine .inr ⟨by simp [hv], i, ⟨⟨rfl, rfl, rfl, rfl, rfl⟩, rfl, rfl⟩, ?_⟩
      rw [setInode_eq_self hi]
      rfl
  | true =>
      cases ha : i.accepts (hsiNfs3Post2fattr attrs NfsFattr.fresh) with
      | false => exact .inl ⟨by simp [hv, ha], rfl⟩
      | true =>
          exact .inr ⟨by simp [hv, ha], i.setAttrs _, ⟨⟨rfl, rfl, rfl, rfl, rfl⟩, rfl, rfl⟩, rfl⟩

/-- What `hsi_nfs3_readdir_plus` does with a listing. -/
def readdirPlusListing (parent : Addr) (clntp : Client) (resok : Readdirplus3resok) :
    Hs (Int × List ReaddirCtx) := do
  let err ← nfsRefreshInode parent (hsiNfs3Post2fattr resok.dirAttributes NfsFattr.fresh)
  if err ≠ 0 then
    clntFreeres clntp
    pure (err, [])
  else
    setCookieVerf parent resok.cookieverf
    match ← readdirPlusEntries resok.entries [] with
    | .ok ctx => do
        clntFreeres clntp
        pure (0, ctx)
    | .error (err, ctx) => do
        freeCtx ctx
        clntFreeres clntp
        pure (err, [])

/-- A listing is given up.  This ends well if `outlast` holds, and the counts outlast the puts
then. -/
theorem Daemon.CacheOk.wp_giveUp {d₃ : Daemon} (hd₃ : d₃.CacheOk) {d : Daemon}
    (hext : d.Extends d₃) {cs : List ReaddirCtx}
    (hcs : ∀ c ∈ cs, c.inode ∈ d₃.sb.idTable ∨ d₃.BadPtr c.inode) {err : Int} (herr : err ≠ 0)
    {i : Inode} {es : List Event} (hnot : ∀ resok ∈ listings es, ¬ Deliverable i es resok)
    {outlast : Prop} (hout : outlast → d₃.Outlasts cs.length)
    (hlisted : d.OutlastsListings es → outlast) (clntp : Client) (tr : List Event) :
    wp Server.record (do freeCtx cs; clntFreeres clntp; pure (err, []))
      (fun r d' tr' ↦ tr' = tr ∧ d.ReaddirPlus i es r.1 r.2 d')
      (fun _ _ tr' ↦ tr' = tr ∧ ¬ outlast) d₃ tr := by
  have hlive : ∀ q ∈ d₃.sb.idTable, d₃.heap q ≠ none := by
    intro q hq
    obtain ⟨k, hk⟩ := hd₃.live q hq
    exact hk ▸ Option.some_ne_none k
  have hfree : wp Server.record (freeCtx cs)
      (fun _ d' _ ↦ outlast → ∀ q, d₃.heap q ≠ none → d'.heap q ≠ none)
      (fun _ _ _ ↦ ¬ outlast) d₃ tr := by
    by_cases h : outlast
    · obtain ⟨d₄, hrun, hlive₄⟩ := (hout h).freeCtx fun c hc ↦
        (hcs c hc).imp (hlive c.inode) (·.nearBad)
      rw [wp_of_ret hrun]
      exact fun _ ↦ hlive₄
    · exact wp_mono (fun _ _ _ _ h' ↦ absurd h' h) (fun _ _ _ _ ↦ h) (Puts.freeCtx cs d₃ tr)
  rw [wp_bind]
  refine wp_mono ?_ ?_ (wp_and (Puts.freeCtx cs d₃ tr) hfree)
  · rintro _ d₄ _ ⟨⟨es₃, rfl, hputs⟩, hkeep⟩
    obtain rfl := hputs.events
    refine ⟨List.append_nil tr, .failed herr hnot hext hd₃ ?_ fun h q hq ↦ ?_⟩
    · exact ⟨⟨hputs.layout, hputs.replies, hputs.touched, hputs.root⟩, rfl, hputs.idTable,
        hputs.fhTable, hputs.heap⟩
    · exact Option.isSome_iff_ne_none.2 (hkeep (hlisted h) q (hlive q (hputs.idTable ▸ hq)))
  · rintro _ d₄ _ ⟨⟨es₃, rfl, hputs⟩, h⟩
    obtain rfl := hputs.events
    exact ⟨List.append_nil tr, h⟩

/-- The listing comes at the end of some events `es`, in a state in which the directory is still
as it was. -/
theorem Daemon.CacheOk.wp_readdirPlusListing {d₁ : Daemon} (hd₁ : d₁.CacheOk) {d : Daemon}
    (hext : d.Extends d₁) (hheap : d₁.heap = d.heap) {p : Addr} {i : Inode}
    (hi : d₁.heap p = some i) (clntp : Client) (resok : Readdirplus3resok) {es : List Event}
    (hden : denials es = []) (hshort : es.any isShort = false) (hlist : listings es = [resok])
    (tr : List Event) :
    wp Server.record (readdirPlusListing p clntp resok)
      (fun r d' tr' ↦ ∃ es', tr' = tr ++ es' ∧ d.ReaddirPlus i (es ++ es') r.1 r.2 d')
      (fun _ _ tr' ↦ ∃ es', tr' = tr ++ es' ∧ listings es' = [] ∧
        ¬ (resok.entries.length < 2 ^ 32 ∧ d₁.Outlasts resok.entries.length)) d₁ tr := by
  unfold readdirPlusListing
  rcases nfsRefreshInode_dir hi resok.dirAttributes with ⟨haccept, hrun⟩ | ⟨haccept, j, hj, hrun⟩
  · rw [wp_bind, wp_of_ret hrun]
    refine ⟨[], (List.append_nil tr).symm, .failed (by decide) ?_ hext hd₁ ?_
      fun _ ↦ hd₁.noneFreed⟩
    · rw [List.append_nil, hlist]
      rintro resok' hmem ⟨haccept', -, -⟩
      rw [List.mem_singleton.1 hmem, haccept] at haccept'
      exact nomatch haccept'
    · exact ⟨⟨rfl, rfl, rfl, rfl⟩, rfl, rfl, rfl, fun _ i hi ↦ ⟨i, i.iCount, hi, rfl⟩⟩
  · rw [wp_bind, wp_of_ret hrun, if_neg (not_not.2 rfl), wp_bind, setCookieVerf,
      wp_of_ret (update_run (d₁.setInode_heap_self p j) _), setInode_setInode, wp_bind]
    have hd₂ : (d₁.setInode p { j with cookieverf := resok.cookieverf }).CacheOk :=
      hd₁.setInode hi ⟨hj.sameId.ino, hj.sameId.fileid, hj.sameId.fh, hj.sameId.flags,
        hj.sameId.iState⟩
    have hext₂ := hext.trans (.setInode (j := { j with cookieverf := resok.cookieverf }) hi
      ⟨hj.sameId.ino, hj.sameId.fileid, hj.sameId.fh, hj.sameId.flags, hj.sameId.iState⟩ hj.priv)
    refine wp_mono ?_ (fun _ _ _ h ↦ h.elim) (hd₂.wp_readdirPlusEntries resok.entries [] tr)
    rintro r d₃ _ ⟨es', rfl, hend⟩
    cases hend with
    | all hlisted =>
        have hd₃ := hlisted.cacheOk hd₂
        refine ⟨es', rfl, .listed ?_ ⟨haccept, ?_, hlisted.handles⟩
          (hext₂.trans (hlisted.extends_.trans (.of_eq rfl rfl rfl)))
          ⟨hd₃.congr rfl rfl rfl rfl, hlisted.names, fun c hc ↦ ?_, fun n ↦ ?_⟩⟩
        · rw [listings_append, hlist, hlisted.listings_eq_nil]
          rfl
        · rw [List.any_append, hshort, hlisted.not_isShort]
          rfl
        · exact (hlisted.mem_or_bad c hc).imp id fun h ↦ ⟨h.nearBad, h.notErr, h.ne_null⟩
        · rw [denials_append, hden]
          exact hlisted.take_mem_iff hd₂ n
    | @gaveUp es₁ es₂ listed cs _ err hlisted hlen herr hcause hnil =>
        have hd₃ := hlisted.cacheOk hd₂
        have hnil' : listings (es₁ ++ es₂) = [] := by
          rw [listings_append, hlisted.listings_eq_nil, hnil]
          rfl
        have hnot : ∀ resok' ∈ listings (es ++ (es₁ ++ es₂)),
            ¬ Deliverable i (es ++ (es₁ ++ es₂)) resok' := by
          rw [listings_append, hlist, hnil']
          rintro resok' hmem ⟨-, hmemory, hhandles⟩
          obtain rfl := List.mem_singleton.1 hmem
          rcases hcause with hcause | ⟨entry, hentry, hnone⟩
          · rw [List.any_append, List.any_append, hcause] at hmemory
            simp at hmemory
          · exact hhandles entry hentry hnone
        have hout : resok.entries.length < 2 ^ 32 ∧ d₁.Outlasts resok.entries.length →
            d₃.Outlasts cs.length := by
          intro hout
          have hcs : cs.length ≤ resok.entries.length := by
            rw [← List.length_map ReaddirCtx.name, hlisted.names, List.length_map]
            exact hlen
          exact (Outlasts.listed (hout.2.setInode (hj.iCount ▸ hout.2 p i hi)) hout.1 hlisted).mono
            hcs
        refine wp_mono ?_ ?_ (hd₃.wp_giveUp (hext₂.trans hlisted.extends_) hlisted.mem_or_bad herr
          hnot hout (fun h ↦ ?_) clntp (tr ++ (es₁ ++ es₂)))
        · rintro r d₄ _ ⟨rfl, h⟩
          exact ⟨es₁ ++ es₂, rfl, h⟩
        · rintro _ d₄ _ ⟨rfl, h⟩
          exact ⟨es₁ ++ es₂, rfl, hnil', h⟩
        · obtain ⟨hlen', hout⟩ := h resok (by
            rw [listings_append, hlist]
            exact List.mem_append_left _ (List.mem_singleton_self resok))
          exact ⟨hlen', hout.congr hheap⟩

/-- **The specification of `hsi_nfs3_readdir_plus`.** -/
theorem Daemon.CacheOk.ends_hsiNfs3ReaddirPlus {d : Daemon} (hd : d.CacheOk) {p : Addr} {i : Inode}
    (hi : d.heap p = some i) (count : UInt32) (cookie : UInt64) (maxcount : UInt32) :
    Ends (fun es r d' ↦ d.ReaddirPlus i es r.1 r.2 d') (fun es _ _ ↦ ¬ d.OutlastsListings es)
      (hsiNfs3ReaddirPlus p count cookie maxcount) d := by
  intro tr
  unfold hsiNfs3ReaddirPlus sbClntp getCookieVerf
  simp only [wp_bind, wp_of_ret (load_run hi), wp_pure, wp_get, wp_of_ret (getfh3_run hi)]
  refine wp_mono ?_ (fun _ _ _ h ↦ absurd (.inl rfl) h) (wp_call_record _ _ tr)
  rintro res d₁ _ ⟨es, rfl, hcall, honly⟩
  obtain ⟨hden, hshort, hlist⟩ := hcall.listings_eq
  have hi₁ : d₁.heap p = some i := honly.heap ▸ hi
  have hd₁ : d₁.CacheOk := honly.cacheOk hd
  have hext : d.Extends d₁ := .of_eq honly.layout honly.heap honly.idTable
  rcases res with err | (resok | status)
  · have herr : err ≠ 0 := by
      cases hcall
      assumption
    refine ⟨es, rfl, .failed herr ?_ hext hd₁ (.refl d₁) fun _ ↦ hd₁.noneFreed⟩
    rw [hlist]
    exact fun _ h ↦ absurd h List.not_mem_nil
  · change wp Server.record (readdirPlusListing p d.sb.clntp resok) _ _ d₁ (tr ++ es)
    refine wp_mono ?_ ?_
      (hd₁.wp_readdirPlusListing hext honly.heap hi₁ d.sb.clntp resok hden hshort hlist (tr ++ es))
    · rintro r d' _ ⟨es', rfl, h⟩
      exact ⟨es ++ es', List.append_assoc .., h⟩
    · rintro _ d' _ ⟨es', rfl, hnil, h⟩
      refine ⟨es ++ es', List.append_assoc .., fun hout ↦ h ?_⟩
      obtain ⟨hlen, hout⟩ := hout resok (by rw [listings_append, hlist, hnil]; exact .head _)
      exact ⟨hlen, hout.congr honly.heap⟩
  · refine ⟨es, rfl, .failed (hsiNfs3StatToErrno_ne_zero status.2) ?_ hext hd₁ ?_
      fun _ ↦ hd₁.noneFreed⟩
    · rw [hlist]
      exact fun _ h ↦ absurd h List.not_mem_nil
    · exact ⟨⟨rfl, rfl, rfl, rfl⟩, rfl, rfl, rfl, fun _ i hi ↦ ⟨i, i.iCount, hi, rfl⟩⟩

end Hsfs
