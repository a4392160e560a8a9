import Hsfs.Nfs3.AclServer
import Hsfs.Nfs3.Fetch

/-!
# What setting a list reports

`hsi_nfs3_setxattr` should return zero if and only if the server has stored the list it was given.
There are several ways to its label `fail` on which the variable `error` is still zero, and a value
that is not well-formed is taken for a missing list.

`SetxattrRun` lists the ways through the function, whatever the calls and the allocator answer;
`setxattr_reports_iff` says when the result tells the truth.
-/

namespace Hsfs

open Interact Interact.Act

/-! ## What the events show -/

/-- What a `GETACL` that succeeds replies. -/
def getaclReply : (req : Rpc) → req.Res → Option Secattr
  | .getacl _ _, .ok acl => some acl
  | _, _ => none

/-- What a `SETACL` that succeeds has stored. -/
def setaclReply : (req : Rpc) → req.Res → Option (NfsFh × Secattr)
  | .setacl fh acl, .ok _ => some (fh, acl)
  | _, _ => none

/-- What a `SETACL` is to store. -/
def setaclArgs : Rpc → Option (NfsFh × Secattr)
  | .setacl fh acl => some (fh, acl)
  | _ => none

/-- What is sent to be stored, once for each attempt. -/
def setacls (es : List Event) : List (NfsFh × Secattr) := (asked es).filterMap setaclArgs

@[simp] theorem allocations_append (es es' : List Event) :
    allocations (es ++ es') = allocations es ++ allocations es' := List.filterMap_append

@[simp] theorem setacls_append (es es' : List Event) :
    setacls (es ++ es') = setacls es ++ setacls es' := by
  rw [setacls, asked_append, List.filterMap_append]
  rfl

/-- A call tests for no memory. -/
theorem CallEvents.allocations_eq {req : Rpc} {es : List Event} {res : Except Int req.Res}
    (h : CallEvents req es res) : allocations es = [] := by
  have hnone {es : List Event} (hes : ∀ e ∈ es, isAttempt e = true) : allocations es = [] :=
    List.filterMap_eq_nil_iff.2 fun e he ↦ allocation_of_isAttempt (hes e he)
  cases h with
  | reply clnt res hes =>
      rw [allocations_append, hnone hes]
      rfl
  | error hes _ => exact hnone hes

/-- A call asks for nothing but what it is for, at least once. -/
theorem ends_call_asks (clnt : Client) (req : Rpc) (d : Daemon) :
    Ends (fun es r d' ↦ Called d req es r d' ∧ asked es ≠ [] ∧ ∀ q ∈ asked es, q = req)
      (fun _ _ _ ↦ True) (hsiNfs3ClntCall clnt req) d := by
  refine ((ends_call_any clnt req).and ((ends_call_asked clnt req d).and
    (.of_evolves (OnlyAsks.call (Q := (· = req)) rfl clnt) d))).mono ?_ fun _ _ _ _ ↦ trivial
  exact fun es r d' h ↦ ⟨h.1, h.2.1, h.2.2⟩

theorem setacls_eq_nil {es : List Event} {req : Rpc} (hreq : setaclArgs req = none)
    (h : ∀ q ∈ asked es, q = req) : setacls es = [] := by
  refine List.filterMap_eq_nil_iff.2 fun q hq ↦ ?_
  rw [h q hq, hreq]

/-! ## Fetching a list -/

/-- The list of a kind in what the server replied. -/
def Secattr.listOf (type : AclType) (acl : Secattr) : PosixAcl :=
  match type with
  | .access => acl.aclent.map entryOfAclent
  | .default => acl.dfaclent.map entryOfDfaclent

/-- How a list is fetched. -/
inductive FetchRun (type : AclType) : List Event → Except Int PosixAcl → Prop
  | list {es : List Event} {acl : Secattr} : picked getaclReply es = [acl] →
      allocations es = [true] →
      FetchRun type es (.ok (acl.listOf type))
  | nomem {es : List Event} {acl : Secattr} : picked getaclReply es = [acl] →
      allocations es = [false] → FetchRun type es (.error Errno.nomem)
  | failed {es : List Event} {err : Int} : picked getaclReply es = [] → allocations es = [] →
      FetchRun type es (.error err)

/-- **`hsi_nfs3_getxattr`** fetches a list, and changes nothing but clients. -/
theorem ends_hsiNfs3Getxattr {d : Daemon} {p : Addr} {i : Inode} (hi : d.heap p = some i)
    (mask : UInt32) (type : AclType) :
    Ends (fun es r d' ↦ FetchRun type es r ∧ setacls es = [] ∧ ClientsOnly d es d')
      (fun _ _ _ ↦ True) (hsiNfs3Getxattr p mask type) d := by
  unfold hsiNfs3Getxattr sbAclClntp
  refine .ret_bind (getfh3_run hi) (.ret_bind rfl ?_)
  cases d.sb.aclClntp with
  | none => exact .pure ⟨.failed rfl rfl, rfl, ClientsOnly.composes.nil d⟩
  | some clnt =>
      refine (ends_call_asks clnt (.getacl i.fh mask) d).bind ?_ fun _ _ _ h ↦ h
      rintro es res d' ⟨⟨hcall, honly⟩, -, hasks⟩
      have hset : setacls es = [] := setacls_eq_nil rfl hasks
      have hmem := hcall.allocations_eq
      cases res with
      | error err =>
          refine .pure ?_
          rw [List.append_nil]
          exact ⟨.failed (hcall.picked_error getaclReply) hmem, hset, honly⟩
      | ok res =>
          cases res with
          | fail status =>
              refine .ret_bind rfl (.pure ?_)
              rw [List.append_nil]
              exact ⟨.failed (hcall.picked_ok getaclReply) hmem, hset, honly.useClient clnt es⟩
          | ok acl =>
              refine ends_malloc_bind fun got ↦ ?_
              have hpicked : picked getaclReply (es ++ [⟨.malloc, got⟩]) = [acl] := by
                rw [picked_append, hcall.picked_ok getaclReply]
                rfl
              have hmem' : allocations (es ++ [⟨.malloc, got⟩]) = [got] := by
                rw [allocations_append, hmem]
                rfl
              have hset' : setacls (es ++ [⟨.malloc, got⟩]) = [] := by
                rw [setacls_append, hset]
                rfl
              cases got with
              | true =>
                  refine .ret_bind rfl ?_
                  cases type with
                  | access => exact .pure ⟨.list hpicked hmem', hset', honly.useClient clnt _⟩
                  | default => exact .pure ⟨.list hpicked hmem', hset', honly.useClient clnt _⟩
              | false =>
                  exact .ret_bind rfl (.pure ⟨.nomem hpicked hmem', hset', honly.useClient _ _⟩)

/-! ## Sending a list -/

/-- What has been stored has been sent. -/
theorem picked_setacl_eq_nil {es : List Event} (h : setacls es = []) :
    picked setaclReply es = [] := by
  refine List.filterMap_eq_nil_iff.2 fun e he ↦ ?_
  cases hpick : pick setaclReply e with
  | none => rfl
  | some args =>
      have hargs : (askedBy e).bind setaclArgs = some args := by
        unfold pick at hpick
        split at hpick
        · next req res =>
            unfold setaclReply at hpick
            split at hpick
            · exact hpick
            · cases hpick
        · cases hpick
      obtain ⟨req, hreq, hargs⟩ := Option.bind_eq_some_iff.1 hargs
      have hasked : req ∈ asked es := List.mem_filterMap.2 ⟨e, he, hreq⟩
      have hmem : args ∈ setacls es := List.mem_filterMap.2 ⟨req, hasked, hargs⟩
      rw [h] at hmem
      exact absurd hmem List.not_mem_nil

/-- Nothing but some arguments is sent, and `err` says whether they have been stored. -/
structure Sent (args : NfsFh × Secattr) (es : List Event) (err : Int) : Prop where
  ne_nil : setacls es ≠ []
  only : ∀ s ∈ setacls es, s = args
  zero_iff : err = 0 ↔ picked setaclReply es = [args]
  failed : err ≠ 0 → picked setaclReply es = []

/-- Nothing is sent before. -/
theorem Sent.after {args : NfsFh × Secattr} {es : List Event} {err : Int} (h : Sent args es err)
    (es₀ : List Event) (h₀ : setacls es₀ = []) : Sent args (es₀ ++ es) err where
  ne_nil := by
    rw [setacls_append, h₀]
    exact h.ne_nil
  only := by
    rw [setacls_append, h₀]
    exact h.only
  zero_iff := by
    rw [picked_append, picked_setacl_eq_nil h₀]
    exact h.zero_iff
  failed := by
    rw [picked_append, picked_setacl_eq_nil h₀]
    exact h.failed

theorem ends_setxattrCall (clnt : Client) (fh : NfsFh) (args : Secattr) (d : Daemon) :
    Ends (fun es err _ ↦ Sent (fh, args) es err) (fun _ _ _ ↦ True)
      (setxattrCall clnt fh args) d := by
  unfold setxattrCall
  refine (ends_call_asks clnt (.setacl fh args) d).bind ?_ fun _ _ _ h ↦ h
  rintro es res d' ⟨⟨hcall, -⟩, hasked, hasks⟩
  have hne : setacls es ≠ [] := by
    obtain ⟨req, hreq⟩ := List.exists_mem_of_ne_nil _ hasked
    have hmem : (fh, args) ∈ setacls es :=
      List.mem_filterMap.2 ⟨req, hreq, by rw [hasks req hreq]; rfl⟩
    exact List.ne_nil_of_mem hmem
  have honly : ∀ s ∈ setacls es, s = (fh, args) := by
    intro s hs
    obtain ⟨req, hreq, hargs⟩ := List.mem_filterMap.1 hs
    rw [hasks req hreq] at hargs
    exact (Option.some.inj hargs).symm
  have hnot {err : Int} (herr : err ≠ 0) (hpicked : picked setaclReply es = []) :
      Sent (fh, args) es err := by
    refine ⟨hne, honly, iff_of_false herr ?_, fun _ ↦ hpicked⟩
    rw [hpicked]
    exact (List.cons_ne_nil _ _).symm
  cases res with
  | error err =>
      refine .pure ?_
      rw [List.append_nil]
      exact hnot hcall.err_ne_zero (hcall.picked_error setaclReply)
  | ok res =>
      cases res with
      | fail status =>
          refine .ret_bind rfl (.pure ?_)
          rw [List.append_nil]
          exact hnot (hsiNfs3StatToErrno_ne_zero status.2) (hcall.picked_ok setaclReply)
      | ok _ =>
          refine .ret_bind rfl (.pure ?_)
          rw [List.append_nil]
          exact ⟨hne, honly, iff_of_true rfl (hcall.picked_ok setaclReply), fun h ↦ absurd rfl h⟩

/-- Memory for entries is asked for, and something else done. -/
theorem ends_callocEntries_bind {α : Type} {d : Daemon} {P : List Event → α → Daemon → Prop}
    {f : Unit → Hs α} (count : Nat)
    (hf : ∀ got : Bool, Ends (fun es ↦ P (⟨.malloc, got⟩ :: es)) (fun _ _ _ ↦ True) (f ()) d) :
    Ends P (fun _ _ _ ↦ True) (callocEntries count >>= f) d := by
  unfold callocEntries
  rw [bind_bind]
  refine ends_malloc_bind fun got ↦ ?_
  by_cases hnone : !got ∧ count ≠ 0
  · rw [if_pos hnone]
    exact .of_fault rfl trivial
  · rw [if_neg hnone]
    exact .ret_bind rfl (hf got)

/-- **The two lists are sent.** -/
theorem ends_setxattrSend {d : Daemon} {p : Addr} {i : Inode} (hi : d.heap p = some i)
    (clnt : Client)
    (mask : UInt32) (acl : PosixAcl) (dfacl : Option PosixAcl) :
    Ends (fun es err _ ↦ Sent (i.fh, secattrOf mask acl (dfacl.getD [])) es err) (fun _ _ _ ↦ True)
      (setxattrSend p clnt mask acl dfacl) d := by
  unfold setxattrSend
  refine .ret_bind (getfh3_run hi) (ends_callocEntries_bind _ fun got ↦ ?_)
  cases dfacl with
  | none =>
      exact (ends_setxattrCall clnt i.fh _ d).mono (fun es _ _ h ↦ h.after [⟨.malloc, got⟩] rfl)
        fun _ _ _ h ↦ h
  | some dfacl =>
      refine ends_callocEntries_bind _ fun got' ↦ ?_
      exact (ends_setxattrCall clnt i.fh _ d).mono
        (fun es _ _ h ↦ h.after [⟨.malloc, got⟩, ⟨.malloc, got'⟩] rfl) fun _ _ _ h ↦ h

/-- How the lists are sent: if the access list is missing, one made from the mode is sent, if there
is memory for it. -/
inductive ListsRun (fh : NfsFh) (mode : UInt32) (acl dfacl : Option PosixAcl) :
    List Event → Int → Prop
  | nomem {es : List Event} : acl = none → allocations es = [false] → setacls es = [] →
      ListsRun fh mode acl dfacl es 0
  | sent {es : List Event} {err : Int} {args : Secattr} :
      (acl = none → (allocations es)[0]? = some true) →
      args.aclent = (acl.getD (posixAclFromMode mode)).map aclentOfEntry →
      args.dfaclent = (dfacl.getD []).map aclentOfEntry → Sent (fh, args) es err →
      ListsRun fh mode acl dfacl es err

theorem ends_setxattrLists {d : Daemon} {p : Addr} {i : Inode} (hi : d.heap p = some i)
    (clnt : Client) (mode : UInt32) (acl dfacl : Option PosixAcl) :
    Ends (fun es err _ ↦ ListsRun i.fh mode acl dfacl es err) (fun _ _ _ ↦ True)
      (setxattrLists p clnt mode acl dfacl) d := by
  unfold setxattrLists
  cases acl with
  | some acl =>
      refine (ends_setxattrSend hi clnt _ acl dfacl).mono (fun _ _ _ h ↦ ?_) fun _ _ _ h ↦ h
      exact .sent (fun h ↦ absurd h (Option.some_ne_none acl)) rfl rfl h
  | none =>
      refine ends_malloc_bind fun got ↦ ?_
      cases got with
      | true =>
          refine (ends_setxattrSend hi clnt _ _ dfacl).mono (fun _ _ _ h ↦ ?_) fun _ _ _ h ↦ h
          exact .sent (fun _ ↦ rfl) rfl rfl (h.after [⟨.malloc, true⟩] rfl)
      | false => exact .pure (.nomem rfl rfl rfl)

/-! ## The ways through the function -/

/-- The list of a kind in what is sent. -/
def Secattr.entriesFor (kind : AclType) (args : Secattr) : List Aclent :=
  match kind with
  | .access => args.aclent
  | .default => args.dfaclent

/-- The type can be set for an inode with this mode. -/
def Applicable (type : Int) (mode : UInt32) : Prop :=
  type = 0x8000 ∨ type = 0x4000 ∧ sIsdir mode = true

theorem applicable_iff {type : Int} {kind : AclType} (h : AclType.ofInt type = some kind)
    (mode : UInt32) : Applicable type mode ↔ kind = .access ∨ sIsdir mode = true := by
  unfold AclType.ofInt at h
  unfold Applicable
  split at h
  · next htype =>
      cases h
      exact iff_of_true (.inl htype) (.inl rfl)
  · next htype =>
      split at h
      · next htype' =>
          cases h
          rw [or_iff_right htype, and_iff_right htype', or_iff_right (by decide)]
      · cases h

/-- What is sent in the place of a missing list. -/
def insteadOf (kind : AclType) (mode : UInt32) : PosixAcl :=
  match kind with
  | .access => posixAclFromMode mode
  | .default => []

/-- The `n`-th allocation succeeds. -/
def Granted (es : List Event) (n : Nat) : Prop := (allocations es)[n]? = some true

/-- Nothing ends the function before a list is sent: the kind can be set for the inode, the list of
a directory is fetched and there is memory for it, and an access list that has not been decoded can
be made from the mode.  There were `n` allocations before. -/
structure Prepared (kind : AclType) (mode : UInt32) (decoded : Prop) (n : Nat) (es : List Event) :
    Prop where
  applicable : kind = .access ∨ sIsdir mode = true
  fetched : sIsdir mode = true → picked getaclReply es ≠ [] ∧ Granted es n
  listed : kind = .access → decoded ∨ Granted es (if sIsdir mode then n + 1 else n)

/-- One allocation more. -/
theorem prepared_malloc (got : Bool) {kind : AclType} {mode : UInt32} {decoded : Prop} {n : Nat}
    {es : List Event} : Prepared kind mode decoded (n + 1) (⟨.malloc, got⟩ :: es) ↔
      Prepared kind mode decoded n es := by
  have hgranted (n : Nat) : Granted (⟨.malloc, got⟩ :: es) (n + 1) ↔ Granted es n := Iff.rfl
  have hindex : (if sIsdir mode then n + 1 + 1 else n + 1) =
    (if sIsdir mode then n + 1 else n) + 1 := by
    split <;> rfl
  constructor
  · rintro ⟨happ, hfetched, hlisted⟩
    rw [hindex, hgranted] at hlisted
    exact ⟨happ, hfetched, hlisted⟩
  · rintro ⟨happ, hfetched, hlisted⟩
    refine ⟨happ, hfetched, ?_⟩
    rwa [hindex, hgranted]

/-- The ways through `hsi_nfs3_setxattr` once the value is decoded, or taken for missing. -/
inductive DecodedRun (kind : AclType) (i : Inode) (acl : Option PosixAcl) : List Event → Int → Prop
  /-- The label `fail` is reached before anything is sent. -/
  | unsent {es : List Event} : setacls es = [] → ¬ Prepared kind i.iattr.mode (acl ≠ none) 0 es →
      DecodedRun kind i acl es 0
  | sent {es : List Event} {err : Int} {args : Secattr} :
      Prepared kind i.iattr.mode (acl ≠ none) 0 es →
      args.entriesFor kind = (acl.getD (insteadOf kind i.iattr.mode)).map aclentOfEntry →
      Sent (i.fh, args) es err → DecodedRun kind i acl es err

/-- The ways through `hsi_nfs3_setxattr` with a client. -/
inductive SetxattrRun (type : Int) (i : Inode) (value : List UInt8) : List Event → Int → Prop
  | unsent {es : List Event} : setacls es = [] →
      (∀ kind X, AclType.ofInt type = some kind → posixAclFromXattr value = some X →
        ¬ Prepared kind i.iattr.mode (Granted es 0) 1 es) → SetxattrRun type i value es 0
  | sent {es : List Event} {err : Int} {kind : AclType} {args : Secattr} :
      AclType.ofInt type = some kind →
      (∀ X, posixAclFromXattr value = some X → Prepared kind i.iattr.mode (Granted es 0) 1 es ∧
        (Granted es 0 → args.entriesFor kind = X.map aclentOfEntry) ∧
        (¬ Granted es 0 → args.entriesFor kind = (insteadOf kind i.iattr.mode).map aclentOfEntry)) →
      Sent (i.fh, args) es err → SetxattrRun type i value es err

/-- How a value is decoded: memory is asked for if it is a list. -/
inductive ValueRun (value : List UInt8) : List Event → Option PosixAcl → Prop
  | malformed : posixAclFromXattr value = none → ValueRun value [] none
  | list {X : PosixAcl} (got : Bool) : posixAclFromXattr value = some X →
      ValueRun value [⟨.malloc, got⟩] (if got then some X else none)

/-- A value is decoded, if there is memory for its list. -/
theorem ends_posixAclFromXattrAlloc (value : List UInt8) (d : Daemon) :
    Ends (fun es acl d' ↦ d' = d ∧ ValueRun value es acl) (fun _ _ _ ↦ True)
      (posixAclFromXattrAlloc value) d := by
  unfold posixAclFromXattrAlloc
  cases hvalue : posixAclFromXattr value with
  | none => exact .pure ⟨rfl, .malformed hvalue⟩
  | some acl =>
      refine ends_malloc_bind fun got ↦ ?_
      cases got with
      | true => exact .pure ⟨rfl, .list true hvalue⟩
      | false => exact .pure ⟨rfl, .list false hvalue⟩

/-- The allocation for the value's list comes before all else. -/
theorem DecodedRun.toSetxattrRun {type : Int} {kind : AclType}
    (htype : AclType.ofInt type = some kind) {i : Inode} {value : List UInt8}
    {acl : Option PosixAcl} {es₀ es : List Event} {err : Int} (h : DecodedRun kind i acl es err)
    (hacl : ValueRun value es₀ acl) : SetxattrRun type i value (es₀ ++ es) err := by
  rcases hacl with hvalue | @⟨X, got, hvalue⟩
  · have hnone (X : PosixAcl) : posixAclFromXattr value ≠ some X := by
      rw [hvalue]
      exact (Option.some_ne_none X).symm
    cases h with
    | unsent hset _ => exact .unsent hset fun _ X _ h ↦ absurd h (hnone X)
    | sent _ _ hsent => exact .sent htype (fun X h ↦ absurd h (hnone X)) hsent
  · have hgot : (if got then some X else none) ≠ none ↔ Granted (⟨.malloc, got⟩ :: es) 0 := by
      cases got with
      | true => exact iff_of_true (Option.some_ne_none X) rfl
      | false => exact iff_of_false (fun h ↦ h rfl) (by rintro ⟨⟩)
    cases h with
    | unsent hset hnot =>
        rw [hgot, ← prepared_malloc got] at hnot
        refine .unsent hset fun kind' _ hkind' _ ↦ ?_
        rw [htype] at hkind'
        cases hkind'
        exact hnot
    | sent hprep hargs hsent =>
        rw [hgot, ← prepared_malloc got] at hprep
        refine .sent htype (fun X' hX' ↦ ?_) (hsent.after [⟨.malloc, got⟩] rfl)
        rw [hvalue] at hX'
        cases hX'
        refine ⟨hprep, fun h ↦ ?_, fun h ↦ ?_⟩
        · cases got with
          | true => exact hargs
          | false => cases h
        · cases got with
          | true => exact absurd rfl h
          | false => exact hargs

section Fetched

variable {i : Inode} {es₁ es : List Event} {err : Int} (hset : setacls es₁ = [])
  (hpicked : sIsdir i.iattr.mode = true → picked getaclReply es₁ ≠ [])
  (hmem : allocations es₁ = if sIsdir i.iattr.mode then [true] else [])

include hset hpicked hmem

/-- An access list is sent, with the default list of a directory. -/
theorem ListsRun.access {acl dfacl : Option PosixAcl}
    (h : ListsRun i.fh i.iattr.mode acl dfacl es err) :
      DecodedRun .access i acl (es₁ ++ es) err := by
  have hgranted : Granted (es₁ ++ es) (if sIsdir i.iattr.mode then 0 + 1 else 0) ↔
    Granted es 0 := by
    rw [Granted, allocations_append, hmem]
    split <;> exact Iff.rfl
  cases h with
  | nomem hacl hnomem hnone =>
      refine .unsent ?_ fun h ↦ ?_
      · rw [setacls_append, hset, hnone]
        rfl
      · rcases h.listed rfl with hne | hgot
        · exact hne hacl
        · rw [hgranted, Granted, hnomem] at hgot
          cases hgot
  | sent hgot hargs _ hsent =>
      refine .sent ⟨.inl rfl, fun hdir ↦ ?_, fun _ ↦ ?_⟩ hargs (hsent.after es₁ hset)
      · rw [if_pos hdir] at hmem
        rw [picked_append, Granted, allocations_append, hmem]
        exact ⟨List.append_ne_nil_of_left_ne_nil (hpicked hdir) _, rfl⟩
      · rw [hgranted]
        by_cases hacl : acl = none
        · exact .inr (hgot hacl)
        · exact .inl hacl

/-- A default list is sent, with the access list of a directory. -/
theorem ListsRun.default (hdir : sIsdir i.iattr.mode = true) {acl : PosixAcl}
    {dfacl : Option PosixAcl} (h : ListsRun i.fh i.iattr.mode (some acl) dfacl es err) :
    DecodedRun .default i dfacl (es₁ ++ es) err := by
  cases h with
  | nomem hacl _ _ => cases hacl
  | sent _ _ hargs hsent =>
      refine .sent ⟨.inr hdir, fun _ ↦ ?_, fun h ↦ ?_⟩ hargs (hsent.after es₁ hset)
      · rw [if_pos hdir] at hmem
        rw [picked_append, Granted, allocations_append, hmem]
        exact ⟨List.append_ne_nil_of_left_ne_nil (hpicked hdir) _, rfl⟩
      · cases h

end Fetched

/-- **`hsi_nfs3_setxattr` with a client.** -/
theorem ends_hsiNfs3Setxattr {d : Daemon} {p : Addr} {i : Inode} (hi : d.heap p = some i)
    {clnt : Client} (hclnt : d.sb.aclClntp = some clnt) (value : List UInt8) {type : Int}
    {kind : AclType} (htype : AclType.ofInt type = some kind) :
    Ends (fun es err _ ↦ SetxattrRun type i value es err) (fun _ _ _ ↦ True)
      (hsiNfs3Setxattr p value kind) d := by
  unfold hsiNfs3Setxattr sbAclClntp
  refine .ret_bind rfl ?_
  rw [hclnt]
  refine .ret_bind (load_run hi) ((ends_posixAclFromXattrAlloc value d).bind ?_ fun _ _ _ h ↦ h)
  rintro es₀ acl d' ⟨hd', hacl⟩
  obtain rfl : d = d' := hd'.symm
  refine Ends.mono (P := fun es err _ ↦ DecodedRun kind i acl es err) ?_
    (fun es err _ h ↦ h.toSetxattrRun htype hacl) fun _ _ _ h ↦ h
  by_cases hdir : sIsdir i.iattr.mode = true
  · rw [if_pos hdir]
    refine (ends_hsiNfs3Getxattr hi _ kind).bind ?_ fun _ _ _ h ↦ h
    rintro es₁ r d' ⟨hfetch, hset, honly⟩
    have hi' : d'.heap p = some i := by rw [honly.heap, hi]
    cases hfetch with
    | list hpicked hmem =>
        have hne : sIsdir i.iattr.mode = true → picked getaclReply es₁ ≠ [] := by
          rw [hpicked]
          exact fun _ ↦ List.cons_ne_nil _ _
        replace hmem : allocations es₁ = if sIsdir i.iattr.mode then [true] else [] := by
          rw [hmem, if_pos hdir]
        cases kind with
        | access =>
            exact (ends_setxattrLists hi' clnt _ _ _).mono (fun _ _ _ h ↦ h.access hset hne hmem)
              fun _ _ _ h ↦ h
        | default =>
            exact (ends_setxattrLists hi' clnt _ _ _).mono
              (fun _ _ _ h ↦ h.default hset hne hmem hdir) fun _ _ _ h ↦ h
    | nomem _ hmem =>
        refine .pure ?_
        rw [List.append_nil]
        refine .unsent hset fun h ↦ ?_
        have hgot := (h.fetched hdir).2
        rw [Granted, hmem] at hgot
        cases hgot
    | failed hpicked _ =>
        refine .pure ?_
        rw [List.append_nil]
        exact .unsent hset fun h ↦ (h.fetched hdir).1 hpicked
  · rw [if_neg hdir]
    cases kind with
    | access =>
        refine (ends_setxattrLists hi clnt _ _ _).mono (fun _ _ _ h ↦ ?_) fun _ _ _ h ↦ h
        change DecodedRun .access i acl ([] ++ _) _
        refine h.access rfl (fun h ↦ absurd h hdir) ?_
        rw [if_neg hdir]
        rfl
    | default =>
        refine .pure (.unsent rfl fun h ↦ ?_)
        rcases h.applicable with h | h
        · cases h
        · exact absurd h hdir

/-- **The same with any number as the type.** -/
theorem ends_hsiNfs3SetxattrWith {d : Daemon} {p : Addr} {i : Inode} (hi : d.heap p = some i)
    {clnt : Client} (hclnt : d.sb.aclClntp = some clnt) (value : List UInt8) (type : Int) :
    Ends (fun es err _ ↦ SetxattrRun type i value es err) (fun _ _ _ ↦ True)
      (hsiNfs3SetxattrWith p value type) d := by
  unfold hsiNfs3SetxattrWith
  cases htype : AclType.ofInt type with
  | some kind => exact ends_hsiNfs3Setxattr hi hclnt value htype
  | none =>
      unfold sbAclClntp
      refine .ret_bind rfl ?_
      rw [hclnt]
      refine .ret_bind (load_run hi) ((ends_posixAclFromXattrAlloc value d).bind ?_ fun _ _ _ h ↦ h)
      rintro es acl _ ⟨-, hacl⟩
      refine .pure ?_
      rw [List.append_nil]
      refine .unsent ?_ fun kind _ hkind ↦ ?_
      · cases hacl with
        | malformed _ => rfl
        | list _ _ => rfl
      · rw [htype] at hkind
        cases hkind

/-- Without a client, nothing is done. -/
theorem hsiNfs3SetxattrWith_run_none {d : Daemon} (hclnt : d.sb.aclClntp = none) (p : Addr)
    (value : List UInt8) (type : Int) :
    (hsiNfs3SetxattrWith p value type).run d = .ret (.ok Errno.notsup, d) := by
  have hrun : sbAclClntp.run d = .ret (.ok none, d) := by
    rw [← hclnt]
    rfl
  unfold hsiNfs3SetxattrWith
  cases AclType.ofInt type with
  | some kind =>
      dsimp only
      unfold hsiNfs3Setxattr
      rw [run_bind_of_ret hrun]
      rfl
  | none =>
      dsimp only
      rw [run_bind_of_ret hrun]
      rfl

/-! ## Telling the truth -/

/-- The server has stored the entries of the value as the list of the type, and has been sent
nothing else. -/
def ListStored (type : Int) (i : Inode) (value : List UInt8) (es : List Event) : Prop :=
  ∃ kind acl args, AclType.ofInt type = some kind ∧ posixAclFromXattr value = some acl ∧
    Secattr.entriesFor kind args = acl.map aclentOfEntry ∧ (∀ s ∈ setacls es, s = (i.fh, args)) ∧
    picked setaclReply es = [(i.fh, args)]

/-- What `hsi_nfs3_setxattr` should return, given what has happened. -/
structure ReportsTruth (type : Int) (i : Inode) (value : List UInt8) (es : List Event) (err : Int) :
    Prop where
  zero_iff : err = 0 ↔ ListStored type i value es
  malformed : posixAclFromXattr value = none → err ≠ 0 ∧ setacls es = []
  inapplicable : ¬ Applicable type i.iattr.mode → err ≠ 0 ∧ setacls es = []
  unfetched : sIsdir i.iattr.mode = true → picked getaclReply es = [] → err ≠ 0 ∧ setacls es = []

/-- The list of the value reaches the server, or what is sent in its place goes unnoticed.  For the
latter there was no memory for the value's list, and what was sent is the same list or was not
stored. -/
def Honest (type : Int) (mode : UInt32) (value : List UInt8) (es : List Event) : Prop :=
  ∃ kind X, AclType.ofInt type = some kind ∧ posixAclFromXattr value = some X ∧
    Prepared kind mode (Granted es 0) 1 es ∧
    (¬ Granted es 0 → (insteadOf kind mode).map aclentOfEntry = X.map aclentOfEntry ∨
      picked setaclReply es = [])

/-- If nothing but some arguments has been sent, they are what the server has stored. -/
theorem Sent.listStored_iff {type : Int} {kind : AclType} (htype : AclType.ofInt type = some kind)
    {value : List UInt8} {X : PosixAcl} (hvalue : posixAclFromXattr value = some X) {i : Inode}
    {args : Secattr} {es : List Event} {err : Int} (h : Sent (i.fh, args) es err) :
    ListStored type i value es ↔
      args.entriesFor kind = X.map aclentOfEntry ∧ picked setaclReply es = [(i.fh, args)] := by
  constructor
  · rintro ⟨kind', X', args', hkind', hX', hentries, honly, hpicked⟩
    obtain ⟨s, hs⟩ := List.exists_mem_of_ne_nil _ h.ne_nil
    have hargs : (i.fh, args) = (i.fh, args') := by rw [← h.only s hs, honly s hs]
    cases hargs
    rw [htype] at hkind'
    rw [hvalue] at hX'
    cases hkind'
    cases hX'
    exact ⟨hentries, hpicked⟩
  · exact fun hstored ↦ ⟨kind, X, args, htype, hvalue, hstored.1, h.only, hstored.2⟩

theorem SetxattrRun.reportsTruth_iff {type : Int} {i : Inode} {value : List UInt8} {es : List Event}
    {err : Int} (h : SetxattrRun type i value es err) :
    ReportsTruth type i value es err ↔ Honest type i.iattr.mode value es := by
  cases h with
  | unsent hset hnot =>
      refine iff_of_false (fun h ↦ ?_) ?_
      · obtain ⟨_, _, _, _, _, _, _, hstored⟩ := h.zero_iff.1 rfl
        rw [picked_setacl_eq_nil hset] at hstored
        cases hstored
      · rintro ⟨kind, X, hkind, hX, hprep, -⟩
        exact hnot kind X hkind hX hprep
  | @sent _ kind args htype hargs hsent =>
      cases hvalue : posixAclFromXattr value with
      | none =>
          refine iff_of_false (fun h ↦ hsent.ne_nil (h.malformed hvalue).2) ?_
          rintro ⟨_, X, -, hX, -⟩
          rw [hvalue] at hX
          cases hX
      | some X =>
          obtain ⟨hprep, hgot, hnot⟩ := hargs X hvalue
          have hstored := hsent.listStored_iff htype hvalue
          constructor
          · refine fun h ↦ ⟨kind, X, htype, hvalue, hprep, fun hmem ↦ ?_⟩
            by_cases herr : err = 0
            · have hentries := (hstored.1 (h.zero_iff.1 herr)).1
              rw [hnot hmem] at hentries
              exact .inl hentries
            · exact .inr (hsent.failed herr)
          · rintro ⟨kind', X', hkind', hX', -, hmem⟩
            rw [htype] at hkind'
            rw [hvalue] at hX'
            cases hkind'
            cases hX'
            have hsame (hpicked : picked setaclReply es = [(i.fh, args)]) :
                Secattr.entriesFor kind args = X.map aclentOfEntry := by
              by_cases hgranted : Granted es 0
              · exact hgot hgranted
              · rcases hmem hgranted with hinstead | hnone
                · rw [hnot hgranted, hinstead]
                · rw [hnone] at hpicked
                  cases hpicked
            have happ : Applicable type i.iattr.mode := (applicable_iff htype _).2 hprep.applicable
            refine ⟨?_, fun h ↦ ?_, fun h ↦ absurd happ h,
              fun hdir h ↦ absurd h (hprep.fetched hdir).1⟩
            · rw [hsent.zero_iff, hstored, and_iff_right_of_imp hsame]
            · rw [hvalue] at h
              cases h

/-- **When `hsi_nfs3_setxattr` tells the truth**: there is no client, or the value is well-formed,
the type can be set for the inode, the list of a directory has been fetched, and memory is not
short. -/
theorem setxattr_reports_iff {d d' : Daemon} {p : Addr} {i : Inode} (hi : d.heap p = some i)
    {value : List UInt8} {type err : Int} {es : List Event}
    (hx : Prog.Exec Server.record ((hsiNfs3SetxattrWith p value type).run d) [] (.ok err, d') es) :
    ReportsTruth type i value es err ↔
      d.sb.aclClntp = none ∨ Honest type i.iattr.mode value es := by
  cases hclnt : d.sb.aclClntp with
  | none =>
      rw [hsiNfs3SetxattrWith_run_none hclnt] at hx
      cases hx
      have herr : Errno.notsup ≠ 0 := by decide
      refine iff_of_true ⟨iff_of_false herr ?_, ?_, ?_, ?_⟩ (.inl rfl)
      · rintro ⟨_, _, _, _, _, _, _, ⟨⟩⟩
      · exact fun _ ↦ ⟨herr, rfl⟩
      · exact fun _ ↦ ⟨herr, rfl⟩
      · exact fun _ _ ↦ ⟨herr, rfl⟩
  | some clnt =>
      rw [or_iff_right (Option.some_ne_none clnt)]
      exact ((ends_hsiNfs3SetxattrWith hi hclnt value type).exec_ok hx).reportsTruth_iff

/-- A server that has no lists and stores what it is sent. -/
private def emptyAclAnswer : (c : Call) → Option c.Res
  | .clntCall _ (.getacl _ mask) => some (.done (.ok ⟨mask, 0, [], 0, []⟩))
  | .clntCall _ (.setacl _ _) => some (.done (.ok ()))
  | c => sampleAnswer c

/-- A list with the entries of a mode. -/
private def modeAcl : PosixAcl := posixAclFromMode 0o755

/-- An access list is set on the root after a mount from that server. -/
private theorem setxattrWith_sample (value : List UInt8)
    (hplay : (sampleMount.bind fun d ↦ ((hsiNfs3SetxattrWith d.sb.root value 0x8000).run d).eval
      (Prog.recorded emptyAclAnswer) []).any (fun r ↦ decide (r.1.1 = .ok 0)) = true) :
    ∃ d i d' es, d.Mounted ∧ d.heap d.sb.root = some i ∧
      Prog.Exec Server.record ((hsiNfs3SetxattrWith d.sb.root value 0x8000).run d) []
        (.ok 0, d') es := by
  obtain ⟨⟨⟨out, d'⟩, es⟩, hplay, htest⟩ := (Option.any_eq_true _ _).1 hplay
  obtain rfl : out = .ok 0 := of_decide_eq_true htest
  obtain ⟨d, hd, hplay⟩ := Option.bind_eq_some_iff.1 hplay
  have hmounted := mounted_of_play hd
  obtain ⟨i, hi⟩ := hmounted.extends_start.1.live _ hmounted.rootOk.mem
  exact ⟨d, i, d', es, hmounted, hi, Prog.exec_record_of_eval hplay⟩

theorem setxattr_reports_iff_root : ∃ d i d' es, d.Mounted ∧ d.heap d.sb.root = some i ∧
    Prog.Exec Server.record
      ((hsiNfs3SetxattrWith d.sb.root (posixAclXattrBytes modeAcl) 0x8000).run d)
      [] (.ok 0, d') es ∧
    (ReportsTruth 0x8000 i (posixAclXattrBytes modeAcl) es 0 ↔
      d.sb.aclClntp = none ∨ Honest 0x8000 i.iattr.mode (posixAclXattrBytes modeAcl) es) := by
  obtain ⟨d, i, d', es, hmounted, hi, hx⟩ :=
    setxattrWith_sample (posixAclXattrBytes modeAcl) (by decide +kernel)
  exact ⟨d, i, d', es, hmounted, hi, hx, setxattr_reports_iff hi hx⟩

/-- An empty value is no list, and yet one is stored. -/
theorem not_setxattr_reports : ¬ ∀ (d d' : Daemon) (p : Addr) (i : Inode) (value : List UInt8)
    (type err : Int) (es : List Event), d.Mounted → d.heap p = some i →
    Prog.Exec Server.record ((hsiNfs3SetxattrWith p value type).run d) [] (.ok err, d') es →
    ReportsTruth type i value es err := by
  intro h
  obtain ⟨d, i, d', es, hmounted, hi, hx⟩ := setxattrWith_sample [] (by decide +kernel)
  have htruth := h d d' _ i [] 0x8000 0 es hmounted hi hx
  exact (htruth.malformed (by decide)).1 rfl

end Hsfs
