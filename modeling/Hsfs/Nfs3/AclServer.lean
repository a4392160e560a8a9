import Hsfs.Daemon.Network
import Hsfs.Fuse.Session

/-!
# Changing one of two access control lists

A directory has two lists, and `SETACL` can replace both.  `hsi_nfs3_setxattr` is meant to
change one of them: it fetches a list from the server and sends it back with the new one.

The server is a map from handles to pairs of lists.  The daemon talks to it over a network
that may lose messages, with an allocator that may fail, and everything that happens is
recorded.
-/

namespace Hsfs

open Interact Interact.Act

/-! ## The server -/

/-- The access list and the default list of each object. -/
abbrev AclStore := NfsFh → List Aclent × List Aclent

/-- The lists of an object after `SETACL`: it replaces those that its mask selects. -/
def Secattr.replace (acl : Secattr) (lists : List Aclent × List Aclent) :
    List Aclent × List Aclent :=
  (if acl.mask &&& NaMask.acl ≠ 0 then acl.aclent else lists.1,
   if acl.mask &&& NaMask.dfacl ≠ 0 then acl.dfaclent else lists.2)

/-- What the server does with a request. -/
def aclServes : (req : Rpc) → AclStore → req.Res → AclStore → Prop
  | .getacl fh mask, s, .ok acl, s' => s' = s ∧
      acl.aclent = (if mask &&& NaMask.acl ≠ 0 then (s fh).1 else []) ∧
      acl.dfaclent = (if mask &&& NaMask.dfacl ≠ 0 then (s fh).2 else [])
  | .setacl fh acl, s, .ok _, s' => s' = Function.update s fh (acl.replace (s fh))
  | _, s, _, s' => s' = s

/-- The server behind the network, with everything that happens recorded. -/
abbrev aclEnv : Server Call Call.Res (AclStore × List Event) :=
  (network aclServes).prod Server.record

/-! ## What the record shows -/

/-- The answer of the allocator, if this is one. -/
def allocation : Event → Option Bool
  | ⟨.malloc, b⟩ => some b
  | _ => none

/-- The answers of the allocator. -/
def allocations (es : List Event) : List Bool := es.filterMap allocation

/-- The event is a reply to `GETACL` with the status `NFS3_OK`. -/
def isAclFetch : Event → Bool
  | ⟨.clntCall _ req, .done res⟩ => isAclReply req res
  | _ => false

/-- The lists have been fetched. -/
def aclFetched (es : List Event) : Bool := es.any isAclFetch

theorem allocation_of_isAttempt {e : Event} (h : isAttempt e = true) : allocation e = none := by
  obtain ⟨_, _, _, rfl⟩ | ⟨_, _, rfl⟩ | ⟨_, _, rfl⟩ := isAttempt_cases h <;> rfl

theorem isAclFetch_of_isAttempt {e : Event} (h : isAttempt e = true) : isAclFetch e = false := by
  obtain ⟨_, _, _, rfl⟩ | ⟨_, _, rfl⟩ | ⟨_, _, rfl⟩ := isAttempt_cases h <;> rfl

/-- What is known of the environment on the way: the lists on the server, whether they have been
fetched, and the answers of the allocator. -/
structure AclSeen (s : AclStore) (fetched : Bool) (as : List Bool) (x : AclStore × List Event) :
    Prop where
  store : x.1 = s
  fetched : aclFetched x.2 = fetched
  allocations : allocations x.2 = as

namespace AclSeen

variable {s : AclStore} {fetched : Bool} {as : List Bool} {x : AclStore × List Event}
  {d : Daemon}

/-- Attempts without a reply show nothing. -/
theorem attempts {s' : AclStore} {tr : List Event} {es : List Event}
    (h : AclSeen s fetched as (s, tr)) (hes : ∀ e ∈ es, isAttempt e = true) :
    AclSeen s' fetched as (s', tr ++ es) := by
  have hnone : es.filterMap allocation = [] :=
    List.filterMap_eq_nil_iff.2 fun e he ↦ allocation_of_isAttempt (hes e he)
  have hfetch : es.any isAclFetch = false :=
    List.any_eq_false.2 fun e he ↦ by simp [isAclFetch_of_isAttempt (hes e he)]
  refine ⟨rfl, ?_, ?_⟩
  · rw [aclFetched, List.any_append, hfetch, Bool.or_false]
    exact h.fetched
  · rw [Hsfs.allocations, List.filterMap_append, hnone, List.append_nil]
    exact h.allocations

/-- A call, with the reply to it as the only thing that is seen. -/
theorem call {req : Rpc} {P : AclStore → Prop} (h : AclSeen s fetched as x) (clnt : Client)
    (hs : P s) (hserve : ∀ s res s', P s → aclServes req s res s' → P s') :
    wp aclEnv (hsiNfs3ClntCall clnt req)
      (CallPost (fun res d' x' ↦ ClientsOnly d [] d' ∧
          (∃ s₁, P s₁ ∧ aclServes req s₁ res x'.1) ∧
          AclSeen x'.1 (fetched || isAclReply req res) as x')
        fun d' x' ↦ ClientsOnly d [] d' ∧ P x'.1 ∧ AclSeen x'.1 fetched as x')
      (fun _ _ _ ↦ True) d x := by
  obtain ⟨s₀, tr⟩ := x
  obtain rfl : s₀ = s := h.store
  have hnet : Attempts (network aclServes) req P fun res s' ↦ ∃ s₁,
    P s₁ ∧ aclServes req s₁ res s' :=
    .network fun s res s' hP hS ↦ ⟨hserve s res s' hP hS, s, hP, hS⟩
  refine wp_mono ?_ (fun _ _ _ _ ↦ trivial) (wp_call_server (hnet.prod (.record req tr)) clnt
    ⟨hs, [], (List.append_nil tr).symm, fun _ he ↦ absurd he List.not_mem_nil⟩)
  rintro (err | res) d' ⟨s', tr'⟩ hpost
  · obtain ⟨herr, honly, hP, es, rfl, hes⟩ := hpost
    exact ⟨herr, honly, hP, h.attempts hes⟩
  · obtain ⟨honly, hres, es, rfl, hes⟩ := hpost
    refine ⟨honly, hres, ?_⟩
    cases hes with
    | @reply es clnt' _ hes =>
        have hseen : AclSeen s' fetched as (s', tr ++ es) := h.attempts hes
        refine ⟨rfl, ?_, ?_⟩
        · rw [aclFetched, ← List.append_assoc, List.any_append]
          exact congr (congrArg or hseen.fetched) (Bool.or_false _)
        · rw [Hsfs.allocations, ← List.append_assoc, List.filterMap_append]
          exact (List.append_nil _).trans hseen.allocations

theorem malloc {Q : Bool → Daemon → AclStore × List Event → Prop}
    {E : Fault → Daemon → AclStore × List Event → Prop} (h : AclSeen s fetched as x)
    (hQ : ∀ b x', AclSeen s fetched (as ++ [b]) x' → Q b d x') : wp aclEnv malloc Q E d x := by
  rintro b ⟨s', tr'⟩ ⟨hs, htr⟩
  obtain rfl : s' = x.1 := hs
  obtain rfl : tr' = x.2 ++ [(⟨.malloc, b⟩ : Event)] := htr
  refine hQ b _ ⟨h.store, ?_, ?_⟩
  · rw [aclFetched, List.any_append]
    exact (Bool.or_false _).trans h.fetched
  · rw [Hsfs.allocations, List.filterMap_append]
    exact congrArg (· ++ [b]) h.allocations

end AclSeen

/-! ## The operations -/

/-- A list as it is sent. -/
def wireOf (acl : PosixAcl) : List Aclent := acl.map aclentOfEntry

/-- The list that `hsi_nfs3_getxattr` makes of the two on the server. -/
def fetchedOf (type : AclType) (lists : List Aclent × List Aclent) : PosixAcl :=
  match type with
  | .access => lists.1.map entryOfAclent
  | .default => lists.2.map entryOfDfaclent

/-- Freeing a reply changes nothing but what is known of the clients. -/
theorem wp_clntFreeres {σ : Type} {S : Server Call Call.Res σ} {d : Daemon} {s : σ} {clnt : Client}
    {Q : Unit → Daemon → σ → Prop} {E : Fault → Daemon → σ → Prop}
    (hQ : ∀ d', ClientsOnly d [] d' → Q () d' s) : wp S (clntFreeres clnt) Q E d s :=
  hQ _ ⟨⟨rfl, rfl, rfl, rfl⟩, rfl, rfl, rfl, rfl⟩

section operations

variable {s : AclStore} {as : List Bool} {x : AclStore × List Event} {d : Daemon} {p : Addr}
  {i : Inode}

/-- **What is fetched is the list of the given kind.**  There is an error if it could not be
fetched, or if there is no memory for it. -/
theorem AclSeen.getxattr (h : AclSeen s false as x) (hi : d.heap p = some i) (type : AclType) :
    wp aclEnv (hsiNfs3Getxattr p (setxattrMask type true) type)
      (fun res d' x' ↦ ClientsOnly d [] d' ∧
        (∀ acl, res = .ok acl → acl = fetchedOf type (s i.fh) ∧ AclSeen s true (as ++ [true]) x') ∧
        (∀ err, res = .error err → AclSeen s false as x' ∨ AclSeen s true (as ++ [false]) x'))
      (fun _ _ _ ↦ True) d x := by
  have hnil := ClientsOnly.composes.nil d
  unfold hsiNfs3Getxattr hsiNfs3Getfh3 sbAclClntp
  simp only [wp_bind, wp_pure, wp_of_ret (load_run hi), wp_get]
  cases d.sb.aclClntp with
  | none => exact ⟨hnil, fun _ hok ↦ (by cases hok), fun _ _ ↦ .inl h⟩
  | some clnt =>
      rw [wp_bind]
      refine wp_mono ?_ (fun _ _ _ _ ↦ trivial) (h.call (P := (· = s)) clnt rfl ?_)
      case refine_2 =>
        rintro s₁ (_ | _) s₂ rfl hS
        · exact hS.1
        · exact hS
      rintro (err | acl | status) d₁ x₁ hpost
      · obtain ⟨-, honly, rfl, hseen⟩ := hpost
        exact ⟨honly, fun _ hok ↦ (by cases hok), fun _ _ ↦ .inl hseen⟩
      · obtain ⟨honly, ⟨_, rfl, rfl, hacl, hdfacl⟩, hseen⟩ := hpost
        rw [wp_bind]
        refine hseen.malloc fun got x₂ hseen₂ ↦ ?_
        cases got with
        | false =>
            change wp aclEnv (freeresSb >>= fun _ ↦ pure _) _ _ _ _
            unfold freeresSb sbClntp
            simp only [wp_bind, wp_pure, wp_get]
            refine wp_clntFreeres fun d₂ honly₂ ↦ ?_
            exact ⟨ClientsOnly.composes.append honly honly₂, fun _ hok ↦ (by cases hok),
              fun _ _ ↦ .inr hseen₂⟩
        | true =>
            change wp aclEnv (clntFreeres clnt >>= fun _ ↦ _) _ _ _ _
            rw [wp_bind]
            refine wp_clntFreeres fun d₂ honly₂ ↦ ?_
            have honly := ClientsOnly.composes.append honly honly₂
            cases type with
            | access =>
                refine ⟨honly, fun _ hok ↦ ?_, fun _ herr ↦ by cases herr⟩
                cases hok
                exact ⟨congrArg (List.map entryOfAclent) hacl, hseen₂⟩
            | default =>
                refine ⟨honly, fun _ hok ↦ ?_, fun _ herr ↦ by cases herr⟩
                cases hok
                exact ⟨congrArg (List.map entryOfDfaclent) hdfacl, hseen₂⟩
      · obtain ⟨honly, ⟨_, rfl, rfl⟩, hseen⟩ := hpost
        change wp aclEnv (clntFreeres clnt >>= fun _ ↦ pure _) _ _ _ _
        rw [wp_bind]
        refine wp_clntFreeres fun d₂ honly₂ ↦ ?_
        exact ⟨ClientsOnly.composes.append honly honly₂, fun _ hok ↦ (by cases hok),
          fun _ _ ↦ .inl hseen⟩

theorem replace_secattrOf (acl dfacl : PosixAcl) (lists : List Aclent × List Aclent) :
    (secattrOf (NaMask.acl ||| NaMask.dfacl) acl dfacl).replace lists =
      (wireOf acl, wireOf dfacl) := by
  have hacl : (NaMask.acl ||| NaMask.dfacl) &&& NaMask.acl ≠ 0 := by decide
  have hdfacl : (NaMask.acl ||| NaMask.dfacl) &&& NaMask.dfacl ≠ 0 := by decide
  exact Prod.ext (if_pos hacl) (if_pos hdfacl)

/-- `SETACL` with both lists selected leaves exactly these, no matter how often it is sent. -/
theorem aclServes_setacl {fh : NfsFh} {acl dfacl : PosixAcl} {s₁ s₂ : AclStore} {res : Nfs3res Unit}
    (hs : s₁ = s ∨ s₁ = Function.update s fh (wireOf acl, wireOf dfacl))
    (h : aclServes (.setacl fh (secattrOf (NaMask.acl ||| NaMask.dfacl) acl dfacl)) s₁ res s₂) :
    (s₂ = s ∨ s₂ = Function.update s fh (wireOf acl, wireOf dfacl)) ∧
      ((∃ u, res = .ok u) → s₂ = Function.update s fh (wireOf acl, wireOf dfacl)) := by
  cases res with
  | fail status =>
      obtain rfl : s₂ = s₁ := h
      exact ⟨hs, fun ⟨_, hok⟩ ↦ nomatch hok⟩
  | ok u =>
      have hs₂ : s₂ = Function.update s fh (wireOf acl, wireOf dfacl) := by
        have h : s₂ = Function.update s₁ fh (wireOf acl, wireOf dfacl) :=
          replace_secattrOf acl dfacl (s₁ fh) ▸ h
        rcases hs with rfl | rfl
        · exact h
        · rw [h, Function.update_idem]
      exact ⟨.inr hs₂, fun _ ↦ hs₂⟩

/-- The call of `SETACL` succeeds only if the server has both lists then. -/
theorem AclSeen.setxattrCall {fetched : Bool} (h : AclSeen s fetched as x) (clnt : Client)
    (fh : NfsFh) (acl dfacl : PosixAcl) :
    wp aclEnv (setxattrCall clnt fh (secattrOf (NaMask.acl ||| NaMask.dfacl) acl dfacl))
      (fun err _ x' ↦ err = 0 →
        AclSeen (Function.update s fh (wireOf acl, wireOf dfacl)) fetched as x')
      (fun _ _ _ ↦ True) d x := by
  unfold Hsfs.setxattrCall
  rw [wp_bind]
  refine wp_mono ?_ (fun _ _ _ _ ↦ trivial) (h.call
    (P := fun s' ↦ s' = s ∨ s' = Function.update s fh (wireOf acl, wireOf dfacl)) clnt (.inl rfl)
    fun _ _ _ hs hS ↦ (aclServes_setacl hs hS).1)
  rintro (err | u | status) d₁ x₁ hpost
  · exact fun herr ↦ absurd herr hpost.1
  · obtain ⟨-, ⟨_, hs, hS⟩, hseen⟩ := hpost
    intro _
    rw [← (aclServes_setacl hs hS).2 ⟨u, rfl⟩]
    exact Bool.or_false fetched ▸ hseen
  · exact fun herr ↦ absurd herr (hsiNfs3StatToErrno_ne_zero status.2)

/-- An untested allocation does not stop the operation, or ends it for good. -/
theorem AclSeen.callocEntries {fetched : Bool} {count : Nat}
    {Q : Unit → Daemon → AclStore × List Event → Prop} (h : AclSeen s fetched as x)
    (hQ : ∀ b x', AclSeen s fetched (as ++ [b]) x' → Q () d x') :
    wp aclEnv (callocEntries count) Q (fun _ _ _ ↦ True) d x := by
  unfold Hsfs.callocEntries
  rw [wp_bind]
  refine h.malloc fun got x₁ hseen ↦ ?_
  rw [wp_ite]
  split
  · trivial
  · exact hQ got x₁ hseen

/-- Sending two lists succeeds only if the server has both then. -/
theorem AclSeen.setxattrSend {fetched : Bool} (h : AclSeen s fetched as x)
    (hi : d.heap p = some i) (clnt : Client) (acl : PosixAcl) (dfacl : Option PosixAcl) :
    wp aclEnv (setxattrSend p clnt (NaMask.acl ||| NaMask.dfacl) acl dfacl)
      (fun err _ x' ↦ err = 0 → ∃ as', AclSeen
        (Function.update s i.fh (wireOf acl, wireOf (dfacl.getD []))) fetched (as ++ as') x')
      (fun _ _ _ ↦ True) d x := by
  unfold Hsfs.setxattrSend hsiNfs3Getfh3
  simp only [wp_bind, wp_pure, wp_of_ret (load_run hi)]
  refine h.callocEntries fun b x₁ h₁ ↦ ?_
  cases dfacl with
  | none =>
      refine wp_mono ?_ (fun _ _ _ h ↦ h) (h₁.setxattrCall clnt i.fh acl [])
      exact fun _ _ _ hseen herr ↦ ⟨[b], hseen herr⟩
  | some dfacl =>
      rw [wp_bind]
      refine h₁.callocEntries fun b' x₂ h₂ ↦ ?_
      refine wp_mono ?_ (fun _ _ _ h ↦ h) (h₂.setxattrCall clnt i.fh acl dfacl)
      intro _ _ _ hseen herr
      rw [List.append_assoc] at hseen
      exact ⟨_, hseen herr⟩

/-- A well-formed value becomes a list if there is memory. -/
theorem AclSeen.posixAclFromXattrAlloc {fetched : Bool} {value : List UInt8} {X : PosixAcl}
    {Q : Option PosixAcl → Daemon → AclStore × List Event → Prop}
    {E : Fault → Daemon → AclStore × List Event → Prop} (h : AclSeen s fetched as x)
    (hX : posixAclFromXattr value = some X)
    (hQ : ∀ got x', AclSeen s fetched (as ++ [got]) x' → Q (if got then some X else none) d x') :
    wp aclEnv (posixAclFromXattrAlloc value) Q E d x := by
  unfold Hsfs.posixAclFromXattrAlloc
  rw [hX, wp_bind]
  refine h.malloc fun got x₁ hseen ↦ ?_
  cases got with
  | true => exact hQ true x₁ hseen
  | false => exact hQ false x₁ hseen

/-- Both lists are sent.  Without an access list, one is made from the mode, unless there is no
memory for it: then nothing is sent. -/
theorem AclSeen.setxattrLists {fetched : Bool} {mode : UInt32} (h : AclSeen s fetched as x)
    (hi : d.heap p = some i) (hdir : sIsdir mode = true) (clnt : Client)
    (acl dfacl : Option PosixAcl) :
    wp aclEnv (setxattrLists p clnt mode acl dfacl)
      (fun err _ x' ↦ err = 0 →
        (acl = none ∧ AclSeen s fetched (as ++ [false]) x') ∨
        ∃ as', AclSeen (Function.update s i.fh (wireOf (acl.getD (posixAclFromMode mode)),
          wireOf (dfacl.getD []))) fetched (as ++ (if acl = none then [true] else []) ++ as') x')
      (fun _ _ _ ↦ True) d x := by
  unfold Hsfs.setxattrLists
  rw [hdir, if_pos rfl]
  cases acl with
  | some acl =>
      refine wp_mono ?_ (fun _ _ _ h ↦ h) (h.setxattrSend hi clnt acl dfacl)
      intro _ _ _ hseen herr
      rw [if_neg (by simp), List.append_nil]
      exact .inr (hseen herr)
  | none =>
      rw [wp_bind]
      refine h.malloc fun got x₁ h₁ ↦ ?_
      cases got with
      | false => exact fun _ ↦ .inl ⟨rfl, h₁⟩
      | true =>
          refine wp_mono ?_ (fun _ _ _ h ↦ h)
            (h₁.setxattrSend hi clnt (posixAclFromMode mode) dfacl)
          intro _ _ _ hseen herr
          rw [if_pos rfl]
          exact .inr (hseen herr)

end operations

/-! ## One list of two -/

section result

variable (type : AclType) (mode : UInt32) (X : PosixAcl) (lists : List Aclent × List Aclent)

/-- The lists that are wanted: one is replaced, the other stays. -/
def aclsWanted : List Aclent × List Aclent :=
  match type with
  | .access => (wireOf X, lists.2)
  | .default => (lists.1, wireOf X)

/-- The lists that a successful `hsi_nfs3_setxattr` of a directory leaves on the server, as they
depend on whether the lists could be fetched and on the allocator: its first answer is for `X`,
its second for the list that is fetched, and without memory for `X` its third is for a list made
from the mode. -/
def aclsAfter (fetched : Bool) (as : List Bool) : List Aclent × List Aclent :=
  match fetched, as with
  | true, got :: true :: rest =>
      match type, got, rest with
      | .access, true, _ => (wireOf X, wireOf (fetchedOf .access lists))
      | .access, false, true :: _ =>
          (wireOf (posixAclFromMode mode), wireOf (fetchedOf .access lists))
      | .access, false, _ => lists
      | .default, true, _ => (wireOf (fetchedOf .default lists), wireOf X)
      | .default, false, _ => (wireOf (fetchedOf .default lists), [])
  | _, _ => lists

/-- When these are the lists that are wanted.  If the lists are fetched and there is memory, the
list that should stay must be the one that is sent in its place: the other list. -/
def AclsKept (fetched : Bool) (as : List Bool) : Prop :=
  match fetched, as with
  | true, got :: true :: rest =>
      match type, got, rest with
      | .access, true, _ => wireOf (fetchedOf .access lists) = lists.2
      | .access, false, true :: _ => wireOf (posixAclFromMode mode) = wireOf X ∧
          wireOf (fetchedOf .access lists) = lists.2
      | .access, false, _ => lists.1 = wireOf X
      | .default, true, _ => wireOf (fetchedOf .default lists) = lists.1
      | .default, false, _ => wireOf (fetchedOf .default lists) = lists.1 ∧ [] = wireOf X
  | _, _ =>
      match type with
      | .access => lists.1 = wireOf X
      | .default => lists.2 = wireOf X

theorem aclsAfter_eq_wanted_iff (fetched : Bool) (as : List Bool) :
    aclsAfter type mode X lists fetched as = aclsWanted type X lists ↔
      AclsKept type mode X lists fetched as := by
  obtain ⟨A, D⟩ := lists
  unfold aclsAfter AclsKept aclsWanted
  split
  · split <;> simp
  · cases type <;> simp

end result

/-- **What a successful `hsi_nfs3_setxattr` of a directory leaves on the server.** -/
theorem wp_hsiNfs3Setxattr {d : Daemon} {p : Addr} {i : Inode} {value : List UInt8} {X : PosixAcl}
    (hi : d.heap p = some i) (hdir : sIsdir i.iattr.mode = true)
    (hX : posixAclFromXattr value = some X) (type : AclType) (s : AclStore) :
    wp aclEnv (hsiNfs3Setxattr p value type)
      (fun err _ x ↦ err = 0 → x.1 = Function.update s i.fh
        (aclsAfter type i.iattr.mode X (s i.fh) (aclFetched x.2) (allocations x.2)))
      (fun _ _ _ ↦ True) d (s, []) := by
  -- if nothing is sent, the lists stay as they are
  have hsame {fetched : Bool} {as : List Bool} {x : AclStore × List Event}
      (h : AclSeen s fetched as x)
        (hlists : aclsAfter type i.iattr.mode X (s i.fh) fetched as = s i.fh) :
      x.1 = Function.update s i.fh
        (aclsAfter type i.iattr.mode X (s i.fh) (aclFetched x.2) (allocations x.2)) := by
    rw [h.fetched, h.allocations, hlists, Function.update_eq_self, h.store]
  -- if lists are sent, they are what is left
  have hsent {as : List Bool} {x : AclStore × List Event} {sent : List Aclent × List Aclent}
      (h : AclSeen (Function.update s i.fh sent) true as x)
      (hlists : aclsAfter type i.iattr.mode X (s i.fh) true as = sent) :
      x.1 = Function.update s i.fh
        (aclsAfter type i.iattr.mode X (s i.fh) (aclFetched x.2) (allocations x.2)) := by
    rw [h.fetched, h.allocations, hlists, h.store]
  have h₀ : AclSeen s false [] (s, []) := ⟨rfl, rfl, rfl⟩
  unfold hsiNfs3Setxattr sbAclClntp posixAclFromXattrAlloc
  simp only [wp_bind, wp_pure, wp_get]
  cases d.sb.aclClntp with
  | none => exact fun herr ↦ absurd herr (by decide)
  | some clnt =>
      simp only [wp_bind, wp_of_ret (load_run hi), hdir, if_true]
      refine h₀.posixAclFromXattrAlloc hX fun got x₁ h₁ ↦ ?_
      refine wp_mono ?_ (fun _ _ _ h ↦ h) (h₁.getxattr hi type)
      rintro (err | acl) d₂ x₂ ⟨honly, hok, herr⟩
      · rintro -
        rcases herr err rfl with h₂ | h₂
        · exact hsame h₂ rfl
        · exact hsame h₂ rfl
      · obtain ⟨rfl, h₂⟩ := hok acl rfl
        have hi₂ : d₂.heap p = some i := honly.heap ▸ hi
        cases type with
        | access =>
            refine wp_mono ?_ (fun _ _ _ h ↦ h) (h₂.setxattrLists hi₂ hdir clnt _ _)
            intro err d₃ x₃ hseen herr
            rcases hseen herr with ⟨hnone, h₃⟩ | ⟨as', h₃⟩
            · cases got with
              | true => cases hnone
              | false => exact hsame h₃ rfl
            · cases got with
              | true => exact hsent h₃ rfl
              | false => exact hsent h₃ rfl
        | default =>
            refine wp_mono ?_ (fun _ _ _ h ↦ h) (h₂.setxattrLists hi₂ hdir clnt _ _)
            intro err d₃ x₃ hseen herr
            rcases hseen herr with ⟨hnone, h₃⟩ | ⟨as', h₃⟩
            · cases hnone
            · cases got with
              | true => exact hsent h₃ rfl
              | false => exact hsent h₃ rfl

/-- **The other list stays exactly if it is the list that is sent in its place.** -/
theorem setxattr_keeps_other_iff {d d' : Daemon} {p : Addr} {i : Inode} {value : List UInt8}
    {X : PosixAcl} {type : AclType} {s s' : AclStore} {es : List Event} (hi : d.heap p = some i)
    (hdir : sIsdir i.iattr.mode = true) (hX : posixAclFromXattr value = some X)
    (h : Prog.Exec aclEnv ((hsiNfs3Setxattr p value type).run d) (s, []) (.ok 0, d') (s', es)) :
    s' = Function.update s i.fh (aclsWanted type X (s i.fh)) ↔
      AclsKept type i.iattr.mode X (s i.fh) (aclFetched es) (allocations es) := by
  have hs' := (wp_iff_exec.1 (wp_hsiNfs3Setxattr hi hdir hX type s)).1 0 d' (s', es) h rfl
  rw [← aclsAfter_eq_wanted_iff]
  constructor
  · intro heq
    have hat := congrFun (hs'.symm.trans heq) i.fh
    simpa only [Function.update_self] using hat
  · exact fun heq ↦ hs'.trans (congrArg (Function.update s i.fh) heq)

/-- The server, run. -/
private def aclReply : (req : Rpc) → AclStore → Option (req.Res × AclStore)
  | .getacl fh mask, s => some (.ok ⟨mask, (s fh).1.length,
      if mask &&& NaMask.acl ≠ 0 then (s fh).1 else [], (s fh).2.length,
      if mask &&& NaMask.dfacl ≠ 0 then (s fh).2 else []⟩, s)
  | .setacl fh acl, s => some (.ok (), Function.update s fh (acl.replace (s fh)))
  | _, _ => none

private theorem aclServes_of_reply (req : Rpc) (s : AclStore) (res : req.Res) (s' : AclStore)
    (h : aclReply req s = some (res, s')) : aclServes req s res s' := by
  unfold aclReply at h
  split at h
  · cases h
    exact ⟨rfl, rfl, rfl⟩
  · cases h
    rfl
  · exact nomatch h

/-- Everything to the owner, and to the others what `perm` says. -/
private def sampleAcl (perm : UInt16) : PosixAcl :=
  [⟨AclTag.userObj, 7, aclUndefinedId⟩, ⟨AclTag.groupObj, perm, aclUndefinedId⟩,
   ⟨AclTag.other, perm, aclUndefinedId⟩]

/-- A server on which every object has the same access list and the same default list. -/
private def sampleAcls (dfacl : List Aclent) : AclStore := fun _ ↦ (wireOf (sampleAcl 5), dfacl)

/-- The access list of the root of a mounted file system is set, and all allocations succeed. -/
private def playSetxattr (dfacl : List Aclent) : Option Bool :=
  sampleMount.bind fun d ↦ (d.heap d.sb.root).bind fun i ↦
    (((hsiNfs3Setxattr d.sb.root (posixAclXattrBytes (sampleAcl 0)) .access).run d).eval
      (Prog.logged (networkAnswer aclReply)) (sampleAcls dfacl, [])).map fun r ↦
        r.1.1.toOption == some 0 && sIsdir i.iattr.mode &&
          r.2.1 i.fh == (wireOf (sampleAcl 0), wireOf (sampleAcl 5)) &&
          aclFetched r.2.2 && (allocations r.2.2).take 2 == [true, true]

private theorem setxattr_sample {dfacl : List Aclent} (hplay : playSetxattr dfacl = some true) :
    ∃ d p i d' s' es, d.Mounted ∧ d.heap p = some i ∧ sIsdir i.iattr.mode = true ∧
      posixAclFromXattr (posixAclXattrBytes (sampleAcl 0)) = some (sampleAcl 0) ∧
      Prog.Exec aclEnv ((hsiNfs3Setxattr p (posixAclXattrBytes (sampleAcl 0)) .access).run d)
        (sampleAcls dfacl, []) (.ok 0, d') (s', es) ∧
      s' i.fh = (wireOf (sampleAcl 0), wireOf (sampleAcl 5)) ∧ aclFetched es = true ∧
      ∃ rest, allocations es = true :: true :: rest := by
  obtain ⟨d, hd, hplay⟩ := Option.bind_eq_some_iff.1 hplay
  obtain ⟨i, hi, hplay⟩ := Option.bind_eq_some_iff.1 hplay
  obtain ⟨⟨⟨out, d'⟩, s', es⟩, hplay, hall⟩ := Option.map_eq_some_iff.1 hplay
  simp only [Bool.and_eq_true, beq_iff_eq] at hall
  obtain ⟨⟨⟨⟨hout, hdir⟩, hlists⟩, hfetched⟩, hmem⟩ := hall
  obtain rfl : out = .ok 0 := by
    cases out with
    | error e => exact nomatch hout
    | ok err => exact congrArg Except.ok (Option.some.inj hout)
  have hrest := List.take_append_drop 2 (allocations es)
  rw [hmem] at hrest
  exact ⟨d, d.sb.root, i, d', s', es, mounted_of_play hd, hi, hdir, by decide,
    Prog.exec_prod_record_of_eval (network_of_answer aclServes_of_reply) hplay, hlists, hfetched,
    _, hrest.symm⟩

/-- The default list is the same as the access list, and stays. -/
theorem setxattr_keeps_other_iff_root : ∃ d p i d' s' es, d.Mounted ∧ d.heap p = some i ∧
    Prog.Exec aclEnv ((hsiNfs3Setxattr p (posixAclXattrBytes (sampleAcl 0)) .access).run d)
      (sampleAcls (wireOf (sampleAcl 5)), []) (.ok 0, d') (s', es) ∧
    s' = Function.update (sampleAcls (wireOf (sampleAcl 5))) i.fh
      (wireOf (sampleAcl 0), wireOf (sampleAcl 5)) := by
  obtain ⟨d, p, i, d', s', es, hd, hi, hdir, hX, h, -, hfetched, rest, hmem⟩ :=
    setxattr_sample (by decide +kernel : playSetxattr (wireOf (sampleAcl 5)) = some true)
  refine ⟨d, p, i, d', s', es, hd, hi, h, (setxattr_keeps_other_iff hi hdir hX h).2 ?_⟩
  rw [hfetched, hmem]
  exact (by decide : wireOf (fetchedOf .access (wireOf (sampleAcl 5), [])) = wireOf (sampleAcl 5))

theorem not_setxattr_keeps_other : ¬ ∀ (d d' : Daemon) (p : Addr) (i : Inode) (value : List UInt8)
    (X : PosixAcl) (type : AclType) (s s' : AclStore) (es : List Event), d.Mounted →
    d.heap p = some i → sIsdir i.iattr.mode = true → posixAclFromXattr value = some X →
    Prog.Exec aclEnv ((hsiNfs3Setxattr p value type).run d) (s, []) (.ok 0, d') (s', es) →
    s' i.fh = aclsWanted type X (s i.fh) := by
  intro hall
  obtain ⟨d, p, i, d', s', es, hd, hi, hdir, hX, h, hlists, -⟩ :=
    setxattr_sample (by decide +kernel : playSetxattr [] = some true)
  have hkept := hall d d' p i _ _ .access _ s' es hd hi hdir hX h
  rw [hlists] at hkept
  have hnil : wireOf (sampleAcl 5) = [] := (Prod.mk.inj hkept).2
  exact absurd hnil (by decide)

end Hsfs
