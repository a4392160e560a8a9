import Hsfs.Daemon.Scope
import Hsfs.Interact.Ends

/-!
# What a remote procedure call amounts to

`hsi_nfs3_clnt_call` makes up to six attempts.  Seen from outside, it returns the reply to
its last attempt, if there was one, and an error number otherwise; the other attempts have
no reply.

`wp_call` is the rule for the retry loop, with an invariant that holds before each attempt.
Two instances of it are all that the operations need: `wp_call_server`, for an invariant of
the server, and `wp_call_record`, for the events of a call.
-/

namespace Hsfs

open Interact Interact.Act

/-! ## Clients of the superblock -/

namespace Daemon

/-- The client is one of those of the superblock. -/
def Owns (d : Daemon) (clnt : Client) : Prop := clnt = d.sb.clntp ∨ d.sb.aclClntp = some clnt

/-- The daemon after it has used a client. -/
def useClient (d : Daemon) (clnt : Client) : Daemon :=
  { d with clients := d.clients.use clnt }

/-- The daemon after it has closed a client. -/
def closeClient (d : Daemon) (clnt : Client) : Daemon :=
  { d with clients := d.clients.close clnt }

/-- The daemon after it has opened a client. -/
def openClient (d : Daemon) : Daemon :=
  { d with clients := d.clients.openNext.use d.clients.opened }

/-- The daemon with a client in the place of another one. -/
def replaceClient (d : Daemon) (old new : Client) : Daemon :=
  { d with sb := if old = d.sb.clntp then { d.sb with clntp := new }
                 else { d.sb with aclClntp := some new } }

theorem owns_replaceClient (d : Daemon) (old new : Client) :
    (d.replaceClient old new).Owns new := by
  unfold replaceClient Owns
  split
  · exact .inl rfl
  · exact .inr rfl

end Daemon

/-- Using a client changes nothing else. -/
theorem ClientsOnly.useClient {d d' : Daemon} {es : List Event} (h : ClientsOnly d es d')
    (clnt : Client) (es' : List Event) : ClientsOnly d es' (d'.useClient clnt) :=
  ⟨⟨h.layout, h.replies, h.touched, h.root⟩, h.heap, h.fhTable, h.idTable, h.currId⟩

section rules

variable {σ : Type} {S : Server Call Call.Res σ} {d : Daemon} {s : σ}

/-! ## Reconnecting -/

section reconnect

variable {Q : Option Client → Daemon → σ → Prop} {E : Fault → Daemon → σ → Prop}

/-- A new client is opened and tried out. -/
theorem wp_hsiNfs3ClntCreate {acl : Bool}
    (hopen : ∀ s', S (.openclnt acl) s false s' → Q none d s')
    (hping : ∀ s' s'', S (.openclnt acl) s true s' → S (.ping d.clients.opened) s' false s'' →
      Q none (d.openClient.closeClient d.clients.opened) s'')
    (hok : ∀ s' s'', S (.openclnt acl) s true s' → S (.ping d.clients.opened) s' true s'' →
      Q (some d.clients.opened) d.openClient s'') :
    wp S (hsiNfs3ClntCreate acl) Q E d s := by
  rintro (_ | _) s' hs'
  · exact hopen s' hs'
  · rintro (_ | _) s'' hs''
    · exact hping s' s'' hs' hs''
    · exact hok s' s'' hs' hs''

/-- **A reconnect closes the client, and puts a new one into its place if that can be opened
and answers.** -/
theorem wp_hsiNfs3ClntReconnect {clnt : Client} (hown : d.Owns clnt)
    (hopen : ∀ acl s', S (.openclnt acl) s false s' → Q none (d.closeClient clnt) s')
    (hping : ∀ acl new s' s'', S (.openclnt acl) s true s' → S (.ping new) s' false s'' →
      new = (d.closeClient clnt).clients.opened →
      Q none ((d.closeClient clnt).openClient.closeClient new) s'')
    (hok : ∀ acl new s' s'', S (.openclnt acl) s true s' → S (.ping new) s' true s'' →
      new = (d.closeClient clnt).clients.opened →
      Q (some new) ((d.closeClient clnt).openClient.replaceClient clnt new) s'') :
    wp S (hsiNfs3ClntReconnect clnt) Q E d s := by
  unfold hsiNfs3ClntReconnect
  rw [wp_bind, wp_get, wp_ite, wp_ite]
  by_cases hc : clnt = d.sb.clntp
  · rw [if_pos hc, wp_bind, hsiMntCloseclnt, wp_modify, wp_bind]
    refine wp_hsiNfs3ClntCreate (hopen false) (fun s' s'' h h' ↦ hping false _ s' s'' h h' rfl)
      fun s' s'' h h' ↦ ?_
    have hnew := hok false _ s' s'' h h' rfl
    rw [Daemon.replaceClient, if_pos (show clnt = (d.closeClient clnt).openClient.sb.clntp from hc)]
      at hnew
    exact hnew
  · rw [if_neg hc, if_pos (hown.resolve_left hc), wp_bind, hsiMntCloseclnt, wp_modify, wp_bind]
    refine wp_hsiNfs3ClntCreate (hopen true) (fun s' s'' h h' ↦ hping true _ s' s'' h h' rfl)
      fun s' s'' h h' ↦ ?_
    have hnew := hok true _ s' s'' h h' rfl
    rw [Daemon.replaceClient,
      if_neg (show ¬ clnt = (d.closeClient clnt).openClient.sb.clntp from hc)]
      at hnew
    exact hnew

end reconnect

/-! ## The retry loop -/

section loop

variable {req : Rpc} {P : Client → Daemon → σ → Prop} {Q : req.Res → Daemon → σ → Prop}
  {R : Daemon → σ → Prop} {E : Fault → Daemon → σ → Prop}

theorem wp_clntCall {clnt : Client} {Q : RpcReply req.Res → Daemon → σ → Prop}
    (h : ∀ (r : RpcReply req.Res) s', S (.clntCall clnt req) s r s' → Q r (d.useClient clnt) s') :
    wp S (clntCall clnt req) Q E d s :=
  fun r s' hS ↦ h r s' hS

/-- What holds after a call: `Q` of the reply, or `R` and there is an error number. -/
def CallPost {α : Type} (Q : α → Daemon → σ → Prop) (R : Daemon → σ → Prop) :
    Except Int α → Daemon → σ → Prop
  | .ok res, d, s => Q res d s
  | .error err, d, s => err ≠ 0 ∧ R d s

/-- What holds after a reconnect: `P` of the new client, or `R`. -/
def ReconnectPost (P : Client → Daemon → σ → Prop) (R : Daemon → σ → Prop) :
    Option Client → Daemon → σ → Prop
  | some new, d, s => P new d s
  | none, d, s => R d s

/-- **The rule for a call.**  `P` holds before each attempt, `Q` after one with a reply, and
`R` if the call gives up. -/
theorem wp_call
    (hdone : ∀ clnt d s res s', P clnt d s → S (.clntCall clnt req) s (.done res) s' →
      Q res (d.useClient clnt) s')
    (hfailed : ∀ clnt d s err s', P clnt d s → S (.clntCall clnt req) s (.failed err) s' →
      P clnt (d.useClient clnt) s')
    (hgiveUp : ∀ clnt d s, P clnt d s → R d s)
    (hreconnect : ∀ clnt d s, P clnt d s →
      wp S (hsiNfs3ClntReconnect clnt) (ReconnectPost P R) E d s)
    {clnt : Client} (hP : P clnt d s) :
    wp S (hsiNfs3ClntCall clnt req) (CallPost Q R) E d s := by
  unfold hsiNfs3ClntCall
  generalize 5 = left
  induction left generalizing clnt d s with
  | zero =>
      unfold hsiNfs3ClntCallLoop
      rw [wp_bind]
      refine wp_clntCall ?_
      rintro (res | err) s' hS
      · exact hdone clnt d s res s' hP hS
      · exact ⟨hsiRpcStatToErrno_ne_zero err, hgiveUp clnt _ s' (hfailed clnt d s err s' hP hS)⟩
  | succ left ih =>
      unfold hsiNfs3ClntCallLoop
      rw [wp_bind]
      refine wp_clntCall ?_
      rintro (res | err) s' hS
      · exact hdone clnt d s res s' hP hS
      · have hP' := hfailed clnt d s err s' hP hS
        have herr := hsiRpcStatToErrno_ne_zero err
        simp only [wp_ite]
        split
        · exact ih hP'
        · split
          · rw [wp_bind]
            refine wp_mono ?_ (fun _ _ _ h ↦ h) (hreconnect clnt _ s' hP')
            rintro (_ | new) d' s'' h
            · exact ⟨herr, h⟩
            · exact ih h
          · exact ⟨herr, hgiveUp clnt _ s' hP'⟩

end loop

/-! ## The server during a call -/

/-- What keeps a property of the server while a call is under way. -/
structure Attempts (S : Server Call Call.Res σ) (req : Rpc) (P : σ → Prop)
    (Q : req.Res → σ → Prop) : Prop where
  done : ∀ clnt s res s', P s → S (.clntCall clnt req) s (.done res) s' → Q res s'
  failed : ∀ clnt s err s', P s → S (.clntCall clnt req) s (.failed err) s' → P s'
  openclnt : ∀ acl s b s', P s → S (.openclnt acl) s b s' → P s'
  ping : ∀ clnt s b s', P s → S (.ping clnt) s b s' → P s'

/-- Two servers that agree on every answer. -/
theorem Attempts.prod {τ : Type} {T : Server Call Call.Res τ} {req : Rpc} {P : σ → Prop}
    {Q : req.Res → σ → Prop} {P' : τ → Prop} {Q' : req.Res → τ → Prop} (h : Attempts S req P Q)
    (h' : Attempts T req P' Q') :
    Attempts (S.prod T) req (fun x ↦ P x.1 ∧ P' x.2) fun res x ↦ Q res x.1 ∧ Q' res x.2 where
  done := fun clnt x res x' hP hS ↦
    ⟨h.done clnt x.1 res x'.1 hP.1 hS.1, h'.done clnt x.2 res x'.2 hP.2 hS.2⟩
  failed := fun clnt x err x' hP hS ↦
    ⟨h.failed clnt x.1 err x'.1 hP.1 hS.1, h'.failed clnt x.2 err x'.2 hP.2 hS.2⟩
  openclnt := fun acl x b x' hP hS ↦
    ⟨h.openclnt acl x.1 b x'.1 hP.1 hS.1, h'.openclnt acl x.2 b x'.2 hP.2 hS.2⟩
  ping := fun clnt x b x' hP hS ↦
    ⟨h.ping clnt x.1 b x'.1 hP.1 hS.1, h'.ping clnt x.2 b x'.2 hP.2 hS.2⟩

/-- A reconnect keeps the property, and its new client is one of the superblock.  It fails only
for a client that the superblock does not know. -/
theorem Attempts.reconnect {req : Rpc} {P : σ → Prop} {Q : req.Res → σ → Prop}
    (h : Attempts S req P Q) (clnt : Client) (hs : P s) :
    wp S (hsiNfs3ClntReconnect clnt) (ReconnectPost (fun new d' s' ↦ d'.Owns new ∧ P s') fun _ ↦ P)
      (fun _ _ _ ↦ ¬ d.Owns clnt) d s := by
  by_cases hown : d.Owns clnt
  · refine wp_hsiNfs3ClntReconnect hown ?_ ?_ ?_
    · exact fun acl s' hS ↦ h.openclnt acl s _ s' hs hS
    · exact fun acl new s' s'' hS hS' _ ↦ h.ping new s' _ s'' (h.openclnt acl s _ s' hs hS) hS'
    · exact fun acl new s' s'' hS hS' _ ↦ ⟨Daemon.owns_replaceClient _ _ _,
        h.ping new s' _ s'' (h.openclnt acl s _ s' hs hS) hS'⟩
  · unfold hsiNfs3ClntReconnect
    obtain ⟨hc, hacl⟩ := not_or.1 hown
    rw [wp_bind, wp_get, wp_ite, if_neg hc, wp_ite, if_neg hacl]
    exact hown

/-- **A call returns the reply to its last attempt, or a host error.**  It fails only for a client
that the superblock does not know. -/
theorem wp_call_server {req : Rpc} {P : σ → Prop} {Q : req.Res → σ → Prop}
    (h : Attempts S req P Q) (clnt : Client) (hs : P s) :
    wp S (hsiNfs3ClntCall clnt req)
      (CallPost (fun res d' s' ↦ ClientsOnly d [] d' ∧ Q res s') fun d' s' ↦
        ClientsOnly d [] d' ∧ P s')
      (fun _ _ _ ↦ ¬ d.Owns clnt) d s := by
  have hcall : wp S (hsiNfs3ClntCall clnt req) (CallPost (fun res _ ↦ Q res) fun _ ↦ P)
      (fun _ _ _ ↦ ¬ d.Owns clnt) d s := by
    refine wp_call (P := fun clnt' d' s' ↦ (d.Owns clnt → d'.Owns clnt') ∧ P s') ?_ ?_ ?_ ?_
      ⟨id, hs⟩
    · exact fun clnt d s res s' hP hS ↦ h.done clnt s res s' hP.2 hS
    · exact fun clnt d s err s' hP hS ↦ ⟨hP.1, h.failed clnt s err s' hP.2 hS⟩
    · exact fun clnt d s hP ↦ hP.2
    · rintro clnt' d' s' ⟨hown, hs'⟩
      refine wp_mono ?_ (fun _ _ _ h h' ↦ h (hown h')) (h.reconnect clnt' hs')
      rintro (_ | new) d'' s'' hP
      · exact hP
      · exact ⟨fun _ ↦ hP.1, hP.2⟩
  refine wp_mono ?_ (fun _ _ _ h ↦ h.1) (wp_and hcall ((ClientsOnly.call clnt req).wp S d s))
  rintro (err | res) d' s' ⟨hpost, es, honly⟩
  · exact ⟨hpost.1, honly.events [], hpost.2⟩
  · exact ⟨honly.events [], hpost⟩

end rules

/-! ## The events of a call -/

/-- An attempt that has brought no reply: a failed `clnt_call`, or a part of a reconnect. -/
def isAttempt : Event → Bool
  | ⟨.clntCall _ _, .failed _⟩ => true
  | ⟨.openclnt _, _⟩ => true
  | ⟨.ping _, _⟩ => true
  | _ => false

theorem isAttempt_cases {e : Event} (h : isAttempt e = true) :
    (∃ clnt req err, e = ⟨.clntCall clnt req, .failed err⟩) ∨
      (∃ clnt res, e = ⟨.openclnt clnt, res⟩) ∨ ∃ clnt res, e = ⟨.ping clnt, res⟩ := by
  unfold isAttempt at h
  split at h
  · exact .inl ⟨_, _, _, rfl⟩
  · exact .inr (.inl ⟨_, _, rfl⟩)
  · exact .inr (.inr ⟨_, _, rfl⟩)
  · exact nomatch h

/-- The events of a call and what it returns. -/
inductive CallEvents (req : Rpc) : List Event → Except Int req.Res → Prop
  /-- Attempts without a reply, and then one with a reply. -/
  | reply {es : List Event} (clnt : Client) (res : req.Res) : (∀ e ∈ es, isAttempt e = true) →
      CallEvents req (es ++ [⟨.clntCall clnt req, .done res⟩]) (.ok res)
  /-- Attempts without a reply. -/
  | error {es : List Event} {err : Int} : (∀ e ∈ es, isAttempt e = true) → err ≠ 0 →
      CallEvents req es (.error err)

theorem CallEvents.err_ne_zero {req : Rpc} {es : List Event} {err : Int}
    (h : CallEvents req es (.error err)) : err ≠ 0 := by
  cases h with
  | error _ herr => exact herr

/-- If there is a reply among the events, it is the one that is returned. -/
theorem CallEvents.of_mem {req : Rpc} {es : List Event} {res : Except Int req.Res}
    (h : CallEvents req es res) {e : Event} (he : e ∈ es) (hreply : isAttempt e = false) :
    ∃ clnt r, e = ⟨.clntCall clnt req, .done r⟩ ∧ res = .ok r := by
  cases h with
  | error hes => simp [hes e he] at hreply
  | reply clnt r hes =>
      rcases List.mem_append.1 he with he | he
      · simp [hes e he] at hreply
      · exact ⟨clnt, r, List.mem_singleton.1 he, rfl⟩

/-- The events of a call while it is under way, and once there is a reply. -/
theorem Attempts.record (req : Rpc) (tr : List Event) :
    Attempts Server.record req (fun tr' ↦ ∃ es, tr' = tr ++ es ∧ ∀ e ∈ es, isAttempt e = true)
      fun res tr' ↦ ∃ es, tr' = tr ++ es ∧ CallEvents req es (.ok res) := by
  have hsnoc {tr' : List Event} (e : Event) (he : isAttempt e = true)
      (h : ∃ es, tr' = tr ++ es ∧ ∀ e ∈ es, isAttempt e = true) :
      ∃ es, tr' ++ [e] = tr ++ es ∧ ∀ e ∈ es, isAttempt e = true := by
    obtain ⟨es, rfl, hes⟩ := h
    refine ⟨es ++ [e], List.append_assoc .., fun e' he' ↦ ?_⟩
    rcases List.mem_append.1 he' with he' | he'
    · exact hes e' he'
    · rw [List.mem_singleton.1 he', he]
  refine ⟨?_, ?_, ?_, ?_⟩
  · rintro clnt _ res _ ⟨es, rfl, hes⟩ rfl
    exact ⟨es ++ [_], List.append_assoc .., .reply clnt res hes⟩
  · rintro clnt tr' err _ htr rfl
    exact hsnoc _ rfl htr
  · rintro acl tr' b _ htr rfl
    exact hsnoc _ rfl htr
  · rintro clnt tr' b _ htr rfl
    exact hsnoc _ rfl htr

/-- **The events of a call are attempts without a reply, and then perhaps the reply that it
returns.**  It fails only for a client that the superblock does not know. -/
theorem wp_call_record {d : Daemon} (clnt : Client) (req : Rpc) (tr : List Event) :
    wp Server.record (hsiNfs3ClntCall clnt req)
      (fun res d' tr' ↦ ∃ es, tr' = tr ++ es ∧ CallEvents req es res ∧ ClientsOnly d es d')
      (fun _ _ _ ↦ ¬ d.Owns clnt) d tr := by
  have hstart : ∃ es, tr = tr ++ es ∧ ∀ e ∈ es, isAttempt e = true :=
    ⟨[], (List.append_nil tr).symm, fun _ he ↦ absurd he List.not_mem_nil⟩
  refine wp_mono ?_ (fun _ _ _ h ↦ h) (wp_call_server (.record req tr) clnt hstart)
  rintro (err | res) d' _ h
  · obtain ⟨herr, honly, es, rfl, hes⟩ := h
    exact ⟨es, rfl, .error hes herr, honly.events es⟩
  · obtain ⟨honly, es, rfl, hes⟩ := h
    exact ⟨es, rfl, hes, honly.events es⟩

/-- What a call returns, with its events. -/
def Called (d : Daemon) (req : Rpc) (es : List Event) (res : Except Int req.Res) (d' : Daemon) :
    Prop := CallEvents req es res ∧ ClientsOnly d es d'

section ends

variable {d : Daemon} {β : Type} {Q : List Event → β → Daemon → Prop}
  {E : List Event → Fault → Daemon → Prop}

theorem ends_call {clnt : Client} (hown : d.Owns clnt) (req : Rpc) :
    Ends (Called d req) (fun _ _ _ ↦ False) (hsiNfs3ClntCall clnt req) d := by
  intro tr
  exact wp_mono (fun _ _ _ ⟨es, he, h⟩ ↦ ⟨es, he, h⟩) (fun _ _ _ h ↦ absurd hown h)
    (wp_call_record clnt req tr)

/-- A call that may fail, as its client may have been replaced. -/
theorem ends_call_any (clnt : Client) (req : Rpc) :
    Ends (Called d req) (fun _ _ _ ↦ True) (hsiNfs3ClntCall clnt req) d := by
  have hall : Ends (fun _ _ _ ↦ True) (fun _ _ _ ↦ True) (hsiNfs3ClntCall clnt req) d :=
    .of_forall (fun _ _ _ ↦ trivial) fun _ _ _ ↦ trivial
  exact fun tr ↦ wp_mono (fun _ _ _ h ↦ h.1) (fun _ _ _ h ↦ h.2)
    (wp_and (wp_call_record clnt req tr) (hall tr))

theorem ends_callSb (req : Rpc) : Ends (Called d req) (fun _ _ _ ↦ False) (callSb req) d :=
  ends_call (.inl rfl) req

/-- First a call. -/
theorem ends_call_bind {req : Rpc} {x : Hs (Except Int req.Res)} {f : Except Int req.Res → Hs β}
    (hx : Ends (Called d req) (fun _ _ _ ↦ False) x d)
    (herror : ∀ es err d', CallEvents req es (.error err) → err ≠ 0 → ClientsOnly d es d' →
      Ends (fun es' ↦ Q (es ++ es')) (fun es' ↦ E (es ++ es')) (f (.error err)) d')
    (hok : ∀ es res d', CallEvents req es (.ok res) → ClientsOnly d es d' →
      Ends (fun es' ↦ Q (es ++ es')) (fun es' ↦ E (es ++ es')) (f (.ok res)) d') :
    Ends Q E (x >>= f) d := by
  refine hx.bind ?_ fun _ _ _ h ↦ h.elim
  rintro es (err | res) d' ⟨hcall, honly⟩
  · exact herror es err d' hcall hcall.err_ne_zero honly
  · exact hok es res d' hcall honly

/-- First a test for memory. -/
theorem ends_malloc_bind {f : Bool → Hs β}
    (hf : ∀ got : Bool, Ends (fun es ↦ Q (⟨.malloc, got⟩ :: es)) (fun es ↦ E (⟨.malloc, got⟩ :: es))
      (f got) d) : Ends Q E (malloc >>= f) d :=
  .ask_bind hf

end ends

/-! ## What the replies say -/

/-- There is a reply in the event. -/
def isReply : Event → Bool
  | ⟨.clntCall _ _, .done _⟩ => true
  | _ => false

/-- The reply is one to `GETACL` with the status `NFS3_OK`. -/
def isAclReply : (req : Rpc) → req.Res → Bool
  | .getacl _ _, .ok _ => true
  | _, _ => false

theorem isReply_of_isAttempt {e : Event} (h : isAttempt e = true) : isReply e = false := by
  obtain ⟨_, _, _, rfl⟩ | ⟨_, _, rfl⟩ | ⟨_, _, rfl⟩ := isAttempt_cases h <;> rfl

/-- What a selector takes from the reply in an event. -/
def pick {α : Type} (sel : (req : Rpc) → req.Res → Option α) : Event → Option α
  | ⟨.clntCall _ req, .done res⟩ => sel req res
  | _ => none

/-- What a selector takes from the replies among some events. -/
def picked {α : Type} (sel : (req : Rpc) → req.Res → Option α) (es : List Event) : List α :=
  es.filterMap (pick sel)

section picked

variable {α : Type} (sel : (req : Rpc) → req.Res → Option α)

@[simp] theorem picked_append (es es' : List Event) :
    picked sel (es ++ es') = picked sel es ++ picked sel es' := List.filterMap_append

@[simp] theorem picked_malloc (got : Bool) (es : List Event) :
    picked sel (⟨.malloc, got⟩ :: es) = picked sel es := rfl

theorem picked_eq_nil {es : List Event} (h : ∀ e ∈ es, isReply e = false) : picked sel es = [] := by
  refine List.filterMap_eq_nil_iff.2 fun e he ↦ ?_
  have hreply := h e he
  unfold isReply at hreply
  split at hreply
  · exact nomatch hreply
  · next hnot =>
      unfold pick
      split
      · exact absurd rfl (hnot _ _ _)
      · rfl

/-- A call that returns a reply. -/
theorem CallEvents.picked_ok {req : Rpc} {es : List Event} {res : req.Res}
    (h : CallEvents req es (.ok res)) : picked sel es = (sel req res).toList := by
  cases h with
  | reply clnt _ hes =>
      rw [picked_append, picked_eq_nil sel fun e he ↦ isReply_of_isAttempt (hes e he),
        List.nil_append]
      have hpick : pick sel ⟨.clntCall clnt req, .done res⟩ = sel req res := rfl
      cases hsel : sel req res with
      | none => simp [picked, hpick, hsel]
      | some a => simp [picked, hpick, hsel]

/-- A call that returns no reply. -/
theorem CallEvents.picked_error {req : Rpc} {es : List Event} {err : Int}
    (h : CallEvents req es (.error err)) : picked sel es = [] := by
  cases h with
  | error hes _ => exact picked_eq_nil sel fun e he ↦ isReply_of_isAttempt (hes e he)

end picked

/-- The event of a test for memory. -/
theorem wp_malloc {d : Daemon} {tr : List Event} {Q : Bool → Daemon → List Event → Prop}
    {E : Fault → Daemon → List Event → Prop}
    (h : ∀ got : Bool, Q got d (tr ++ [⟨.malloc, got⟩])) : wp Server.record malloc Q E d tr := by
  refine fun (got : Bool) _ hgot ↦ ?_
  subst hgot
  exact h got

/-! ## What is asked -/

/-- The call in an event, whether it has brought a reply or not. -/
def askedBy : Event → Option Rpc
  | ⟨.clntCall _ req, _⟩ => some req
  | _ => none

/-- The calls among some events, once for each attempt. -/
def asked (es : List Event) : List Rpc := es.filterMap askedBy

theorem asked_append (es es' : List Event) : asked (es ++ es') = asked es ++ asked es' :=
  List.filterMap_append

/-- All calls have the property `Q`. -/
def OnlyAsks (Q : Rpc → Prop) (_ : Daemon) (es : List Event) (_ : Daemon) : Prop :=
  ∀ req ∈ asked es, Q req

namespace OnlyAsks

variable {Q : Rpc → Prop}

theorem composes (Q : Rpc → Prop) : Composes (OnlyAsks Q) where
  nil := fun _ _ h ↦ absurd h List.not_mem_nil
  append := by
    intro d d' d'' es es' h h' req hreq
    rw [asked_append] at hreq
    exact (List.mem_append.1 hreq).elim (h req) (h' req)

/-- Nothing is asked. -/
theorem of_nil {d d' : Daemon} {es : List Event} (h : asked es = []) : OnlyAsks Q d es d' :=
  fun _ hreq ↦ absurd (h ▸ hreq) List.not_mem_nil

theorem call {req : Rpc} (hreq : Q req) (clnt : Client) :
    Evolves (OnlyAsks Q) (hsiNfs3ClntCall clnt req) := by
  refine evolves_call (composes Q) (fun _ ↦ .ask fun _ _ ↦ of_nil rfl)
    (fun _ ↦ .ask fun _ _ ↦ of_nil rfl)
    (fun _ _ ↦ .modify fun _ ↦ of_nil rfl) (fun clnt ↦ ?_) clnt
  refine .bind (composes Q) (.modify fun _ ↦ of_nil rfl) fun _ ↦ .ask fun _ _ req' hreq' ↦ ?_
  rwa [List.mem_singleton.1 hreq']

end OnlyAsks

/-- A call makes at least one attempt. -/
theorem ends_call_asked (clnt : Client) (req : Rpc) (d : Daemon) :
    Ends (fun es _ _ ↦ asked es ≠ []) (fun es _ _ ↦ asked es ≠ [])
      (hsiNfs3ClntCall clnt req) d := by
  have hcall : Ends (fun es _ _ ↦ asked es ≠ []) (fun _ _ _ ↦ False) (clntCall clnt req) d := by
    refine .ret_bind (x := useClient clnt) rfl fun tr ↦ ?_
    rintro r _ rfl
    exact ⟨_, rfl, List.cons_ne_nil _ _⟩
  unfold hsiNfs3ClntCall hsiNfs3ClntCallLoop
  refine hcall.bind (fun es _ d' hes ↦ ?_) fun _ _ _ h ↦ h.elim
  have hmore (es' : List Event) : asked (es ++ es') ≠ [] := by
    rw [asked_append]
    exact List.append_ne_nil_of_left_ne_nil hes _
  exact .of_forall (fun es' _ _ ↦ hmore es') fun es' _ _ ↦ hmore es'

end Hsfs
