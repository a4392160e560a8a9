import Hsfs.Daemon.Rpc
import Hsfs.Fuse.Session
import Hsfs.Nfs3.Frame

/-!
# RPC client handles

A reconnect closes a client and puts a new one into the superblock.  That goes wrong in two
ways.  If no new client can be made, the superblock is left with the closed one.  And an
operation that has read the client before the call goes on to free the reply through the
client that has been closed.

Nothing else goes wrong: as long as every reconnect succeeds and no operation goes on to use a
client that it has read before one, the clients of the superblock are open and no client is used
that is not.  For most operations that keep their client this means that the call is not answered
any more after a reconnect.
-/

namespace Hsfs

open Interact Interact.Act

/-! ## Live clients -/

/-- The clients of the superblock are open, and only open clients have been used. -/
structure Daemon.Live (d : Daemon) : Prop where
  clntp : d.clients.IsOpen d.sb.clntp
  aclClntp : ∀ c ∈ d.sb.aclClntp, d.clients.IsOpen c
  ne : d.sb.aclClntp ≠ some d.sb.clntp
  closed : ∀ c ∈ d.clients.closed, c < d.clients.opened
  misused : d.clients.misused = []

/-- The clients are live when the daemon starts. -/
theorem Daemon.start_live (l : Layout) (o : MountOpts) : (Daemon.start l o).Live := by
  cases h : o.acl <;> refine ⟨?_, ?_, ?_, ?_, rfl⟩ <;> simp [start, h, Clients.IsOpen]

namespace Daemon.Live

variable {d : Daemon} {clnt : Client}

theorem isOpen (h : d.Live) (hown : d.Owns clnt) : d.clients.IsOpen clnt := by
  rcases hown with rfl | hacl
  · exact h.clntp
  · exact h.aclClntp clnt hacl

/-- Liveness only speaks about the clients. -/
theorem congr {d' : Daemon} (h : d.Live) (hc : d'.clients = d.clients)
    (hclntp : d'.sb.clntp = d.sb.clntp) (hacl : d'.sb.aclClntp = d.sb.aclClntp) : d'.Live :=
  ⟨by rw [hc, hclntp]; exact h.clntp, by rw [hc, hacl]; exact h.aclClntp,
    by rw [hacl, hclntp]; exact h.ne, by rw [hc]; exact h.closed, by rw [hc]; exact h.misused⟩

/-- Using an open client leaves no trace. -/
theorem useClient_eq (h : d.Live) (hown : d.Owns clnt) : d.useClient clnt = d := by
  unfold Daemon.useClient Clients.use
  rw [if_pos (h.isOpen hown)]

/-- **A reconnect that succeeds keeps the clients live.** -/
theorem reconnect (h : d.Live) (hown : d.Owns clnt) :
    ((d.closeClient clnt).openClient.replaceClient clnt
      (d.closeClient clnt).clients.opened).Live := by
  have hopen := h.isOpen hown
  have hclose : d.clients.close clnt = { d.clients with closed := clnt :: d.clients.closed } := by
    rw [Clients.close, Clients.use, if_pos hopen]
  have hnew : (d.clients.close clnt).openNext.IsOpen d.clients.opened := by
    rw [hclose]
    refine ⟨Nat.lt_succ_self _, fun hmem ↦ ?_⟩
    rcases List.mem_cons.1 hmem with heq | hmem
    · exact absurd hopen.1 (heq ▸ Nat.lt_irrefl _)
    · exact Nat.lt_irrefl _ (h.closed _ hmem)
  have hclients : (d.closeClient clnt).openClient.clients =
      { d.clients with opened := d.clients.opened + 1, closed := clnt :: d.clients.closed } := by
    change (d.clients.close clnt).openNext.use (d.clients.close clnt).opened = _
    rw [show (d.clients.close clnt).opened = d.clients.opened by rw [hclose], Clients.use,
      if_pos hnew, hclose]
    rfl
  have hopened : (d.closeClient clnt).clients.opened = d.clients.opened := by
    change (d.clients.close clnt).opened = _
    rw [hclose]
  -- the other client is still open
  have hother {c : Client} (hc : d.clients.IsOpen c) (hne : c ≠ clnt) :
      (d.closeClient clnt).openClient.clients.IsOpen c := by
    rw [hclients]
    exact ⟨Nat.lt_succ_of_lt hc.1, fun hmem ↦ (List.mem_cons.1 hmem).elim hne hc.2⟩
  have hnew' : (d.closeClient clnt).openClient.clients.IsOpen d.clients.opened := by
    rw [hclients]
    rw [hclose] at hnew
    exact hnew
  have hclosed : ∀ c ∈ (d.closeClient clnt).openClient.clients.closed,
      c < (d.closeClient clnt).openClient.clients.opened := by
    rw [hclients]
    rintro c (_ | ⟨_, hmem⟩)
    · exact Nat.lt_succ_of_lt hopen.1
    · exact Nat.lt_succ_of_lt (h.closed c hmem)
  have hmisused : (d.closeClient clnt).openClient.clients.misused = [] := by
    rw [hclients]
    exact h.misused
  rw [hopened]
  unfold replaceClient
  by_cases hc : clnt = d.sb.clntp
  · rw [if_pos (show clnt = (d.closeClient clnt).openClient.sb.clntp from hc)]
    refine ⟨hnew', fun c hacl ↦ ?_, fun hacl ↦ ?_, hclosed, hmisused⟩
    · exact hother (h.aclClntp c hacl) fun heq ↦ h.ne (by rw [← hc, ← heq]; exact hacl)
    · exact Nat.lt_irrefl _ (h.aclClntp _ hacl).1
  · rw [if_neg (show ¬ clnt = (d.closeClient clnt).openClient.sb.clntp from hc)]
    refine ⟨hother h.clntp (Ne.symm hc), fun c hacl ↦ ?_, fun hacl ↦ ?_, hclosed, hmisused⟩
    · obtain rfl := Option.some.inj hacl
      exact hnew'
    · have heq : d.clients.opened = d.sb.clntp := Option.some.inj hacl
      exact Nat.lt_irrefl _ (heq ▸ h.clntp.1)

end Daemon.Live

/-! ## Reconnects among the events -/

/-- An attempt to make a new client. -/
def isReconnect : Event → Bool
  | ⟨.openclnt _, _⟩ => true
  | ⟨.ping _, _⟩ => true
  | _ => false

/-- An attempt to make a new client that failed. -/
def reconnectFailed : Event → Bool
  | ⟨.openclnt _, false⟩ => true
  | ⟨.ping _, false⟩ => true
  | _ => false

/-- The clients are live, and they are the given ones. -/
def Daemon.LiveWith (d : Daemon) (clntp : Client) (aclClntp : Option Client) : Prop :=
  d.Live ∧ d.sb.clntp = clntp ∧ d.sb.aclClntp = aclClntp

/-- As long as nothing bad happens, the invariant holds. -/
def Guarded (bad : Event → Bool) (I : Daemon → Prop) (d : Daemon) (es : List Event)
    (d' : Daemon) : Prop :=
  (∀ e ∈ es, bad e = false) → I d → I d'

namespace Guarded

variable {bad : Event → Bool} {I : Daemon → Prop} {d d' : Daemon}

theorem composes (bad : Event → Bool) (I : Daemon → Prop) : Composes (Guarded bad I) where
  nil := fun _ _ h ↦ h
  append := fun h h' hes hd ↦ h' (fun e he ↦ hes e (List.mem_append_right _ he))
    (h (fun e he ↦ hes e (List.mem_append_left _ he)) hd)

/-- Once something bad has happened, nothing is claimed. -/
theorem of_mem {es : List Event} {e : Event} (he : e ∈ es) (hbad : bad e = true) :
    Guarded bad I d es d' := by
  intro hgood
  rw [hgood e he] at hbad
  exact nomatch hbad

/-- If the invariant does not hold, nothing is claimed. -/
theorem wp_of_not {α : Type} (hd : ¬ I d) (x : Hs α) (tr : List Event) :
    wp Server.record x (fun _ d' tr' ↦ ∃ es, tr' = tr ++ es ∧ Guarded bad I d es d')
      (fun _ d' tr' ↦ ∃ es, tr' = tr ++ es ∧ Guarded bad I d es d') d tr := by
  refine wp_mono ?_ ?_ (Evolves.of_forall (r := fun _ _ _ ↦ True) (fun _ _ _ ↦ trivial) x d tr)
  all_goals
    rintro _ d' _ ⟨es, rfl, -⟩
    exact ⟨es, rfl, fun _ h ↦ absurd h hd⟩

/-- Using an open client keeps the invariant. -/
theorem useClient (hlive : ∀ d, I d → d.Live) {clnt : Client} (hown : I d → d.Owns clnt)
    (es : List Event) : Guarded bad I d es (d.useClient clnt) := by
  intro _ hd
  rw [(hlive d hd).useClient_eq (hown hd)]
  exact hd

/-- **A call keeps the invariant**, if the invariant makes the clients live, a failed reconnect
is bad, and one that succeeds keeps the invariant or is bad as well. -/
theorem wp_call (hlive : ∀ d, I d → d.Live) (hopen : ∀ acl, bad ⟨.openclnt acl, false⟩ = true)
    (hping : ∀ c, bad ⟨.ping c, false⟩ = true)
    (hok : ∀ d clnt c, I d → d.Owns clnt → bad ⟨.ping c, true⟩ = false →
      I ((d.closeClient clnt).openClient.replaceClient clnt (d.closeClient clnt).clients.opened))
    {clnt : Client} (hown : I d → d.Owns clnt) (req : Rpc) (tr : List Event) :
    wp Server.record (hsiNfs3ClntCall clnt req)
      (fun _ d' tr' ↦ ∃ es, tr' = tr ++ es ∧ Guarded bad I d es d')
      (fun _ d' tr' ↦ ∃ es, tr' = tr ++ es ∧ Guarded bad I d es d') d tr := by
  by_cases hd : I d
  case neg => exact wp_of_not hd _ tr
  -- before each attempt, the client is one of the superblock
  let R (d' : Daemon) (tr' : List Event) : Prop := ∃ es, tr' = tr ++ es ∧ Guarded bad I d es d'
  let P (clnt : Client) (d' : Daemon) (tr' : List Event) : Prop := d'.Owns clnt ∧ R d' tr'
  have huse {clnt : Client} {d' : Daemon} {tr' : List Event} (h : P clnt d' tr') (e : Event) :
      R (d'.useClient clnt) (tr' ++ [e]) := by
    obtain ⟨hown, es, rfl, hes⟩ := h
    exact ⟨es ++ [e], List.append_assoc .., (composes bad I).append hes
      (useClient hlive (fun _ ↦ hown) [e])⟩
  have hfail {d' d'' : Daemon} {tr' : List Event} (h : R d' tr') (fs : List Event) {e : Event}
      (he : e ∈ fs) (hbad : bad e = true) : R d'' (tr' ++ fs) := by
    obtain ⟨es, rfl, -⟩ := h
    exact ⟨es ++ fs, List.append_assoc .., of_mem (List.mem_append_right _ he) hbad⟩
  have hreconnect (clnt : Client) (d' : Daemon) (tr' : List Event) (h : P clnt d' tr') :
      wp Server.record (hsiNfs3ClntReconnect clnt) (ReconnectPost P R) (fun _ _ _ ↦ False)
        d' tr' := by
    obtain ⟨hown, hR⟩ := h
    refine wp_hsiNfs3ClntReconnect hown ?_ ?_ ?_
    · rintro acl _ rfl
      exact hfail hR _ (List.mem_singleton_self _) (hopen acl)
    · rintro acl new _ _ rfl rfl -
      rw [List.append_assoc]
      exact hfail hR _ (List.mem_append_right _ (List.mem_singleton_self _)) (hping new)
    · rintro acl new _ _ rfl rfl rfl
      obtain ⟨es, rfl, hes⟩ := hR
      simp only [List.append_assoc]
      refine ⟨Daemon.owns_replaceClient _ _ _, _, rfl,
        (composes bad I).append hes fun hgood hd' ↦ hok d' clnt _ hd' hown
          (hgood _ (List.mem_append_right _ (List.mem_singleton_self _)))⟩
  have hcall : wp Server.record (hsiNfs3ClntCall clnt req) (CallPost (fun _ ↦ R) R)
      (fun _ _ _ ↦ False) d tr := by
    refine Hsfs.wp_call (P := P) ?_ ?_ ?_ hreconnect
      ⟨hown hd, [], (List.append_nil tr).symm, (composes bad I).nil d⟩
    · rintro clnt d' tr' res _ h rfl
      exact huse h _
    · rintro clnt d' tr' err _ h rfl
      exact ⟨h.1, huse h _⟩
    · exact fun clnt d' tr' h ↦ h.2
  refine wp_mono ?_ (fun _ _ _ h ↦ h.elim) hcall
  rintro (err | res) d' tr' h
  · exact h.2
  · exact h

end Guarded

/-! ## The operations -/

/-- **An operation that does not keep its client keeps the clients live, if no reconnect
fails.** -/
theorem Frame.live : Frame (Evolves (Guarded reconnectFailed Daemon.Live)) where
  closed := (Guarded.composes _ _).closed
  malloc := .ask fun _ _ _ h ↦ h
  callSb := fun req _ _ tr ↦ Guarded.wp_call (fun _ h ↦ h) (fun _ ↦ rfl) (fun _ ↦ rfl)
    (fun _ _ _ h hown _ ↦ h.reconnect hown) (fun _ ↦ .inl rfl) req tr
  freeresSb := fun _ tr ↦ ⟨[], (List.append_nil tr).symm,
    Guarded.useClient (fun _ h ↦ h) (fun _ ↦ .inl rfl) []⟩
  fhget := fun fh fattr ↦ (CacheOnly.fhget fh fattr).mono fun _ _ _ h _ hd ↦
    hd.congr h.clients h.clntp h.aclClntp
  refresh := fun p fattr ↦ (CacheOnly.refresh p fattr).mono fun _ _ _ h _ hd ↦
    hd.congr h.clients h.clntp h.aclClntp
  super := fun _ hf ↦ .modify fun d _ hd ↦ hd.congr rfl (hf d.sb).clntp (hf d.sb).aclClntp

namespace Daemon.LiveWith

variable {clntp : Client} {aclClntp : Option Client} {d d' : Daemon}

theorem congr (h : d.LiveWith clntp aclClntp) (hc : d'.clients = d.clients)
    (hclntp : d'.sb.clntp = d.sb.clntp) (hacl : d'.sb.aclClntp = d.sb.aclClntp) :
    d'.LiveWith clntp aclClntp :=
  ⟨h.1.congr hc hclntp hacl, hclntp.trans h.2.1, hacl.trans h.2.2⟩

theorem owns (h : d.LiveWith clntp aclClntp) {c : Client} (hc : c = clntp ∨ aclClntp = some c) :
    d.Owns c := by
  unfold Owns
  rwa [h.2.1, h.2.2]

/-- A call through a client that is kept. -/
theorem call {c : Client} (hc : c = clntp ∨ aclClntp = some c) (req : Rpc) :
    Evolves (Guarded isReconnect fun d ↦ d.LiveWith clntp aclClntp) (hsiNfs3ClntCall c req) :=
  fun _ tr ↦ Guarded.wp_call (fun _ h ↦ h.1) (fun _ ↦ rfl) (fun _ ↦ rfl)
    (fun _ _ _ _ _ h ↦ nomatch h) (fun h ↦ h.owns hc) req tr

end Daemon.LiveWith

/-- **An operation that keeps its client keeps the clients live, if there is no reconnect.** -/
theorem HandleFrame.live (clntp : Client) (aclClntp : Option Client) :
    HandleFrame (Evolves (Guarded isReconnect fun d ↦ d.LiveWith clntp aclClntp))
      fun c ↦ c = clntp ∨ aclClntp = some c where
  closed := (Guarded.composes _ _).closed
  malloc := .ask fun _ _ _ h ↦ h
  callSb := fun req _ _ tr ↦ Guarded.wp_call (fun _ h ↦ h.1) (fun _ ↦ rfl) (fun _ ↦ rfl)
    (fun _ _ _ _ _ h ↦ nomatch h) (fun _ ↦ .inl rfl) req tr
  freeresSb := fun _ tr ↦ ⟨[], (List.append_nil tr).symm,
    Guarded.useClient (fun _ h ↦ h.1) (fun _ ↦ .inl rfl) []⟩
  fhget := fun fh fattr ↦ (CacheOnly.fhget fh fattr).mono fun _ _ _ h _ hd ↦
    hd.congr h.clients h.clntp h.aclClntp
  refresh := fun p fattr ↦ (CacheOnly.refresh p fattr).mono fun _ _ _ h _ hd ↦
    hd.congr h.clients h.clntp h.aclClntp
  setCookieVerf := fun p _ ↦ (CacheOnly.update p _).mono fun _ _ _ h _ hd ↦
    hd.congr h.clients h.clntp h.aclClntp
  super := fun _ hf ↦ .modify fun d _ hd ↦ hd.congr rfl (hf d.sb).clntp (hf d.sb).aclClntp
  clntp := by
    intro α f hf d tr
    by_cases hd : d.LiveWith clntp aclClntp
    · exact hf d.sb.clntp (.inl hd.2.1) d tr
    · exact Guarded.wp_of_not hd _ tr
  aclClntp := by
    intro α f hf d tr
    by_cases hd : d.LiveWith clntp aclClntp
    · exact hf d.sb.aclClntp (fun c hc ↦ .inr (hd.2.2 ▸ hc)) d tr
    · exact Guarded.wp_of_not hd _ tr
  call := fun _ hc req _ ↦ Daemon.LiveWith.call hc req
  list := fun _ hc req _ ↦ Daemon.LiveWith.call hc req
  freeres := fun _ hc _ tr ↦ ⟨[], (List.append_nil tr).symm,
    Guarded.useClient (fun _ h ↦ h.1) (fun h ↦ h.owns hc) []⟩

/-! ## Calls without an answer

An operation that keeps its client uses it only for its call and to free the reply.  If the call is
not answered, a reconnect in it does no harm. -/

section GivesUp

/-- Without replies and failed reconnects, the clients are live afterwards, if they are live before
and are the given ones. -/
def LiveUnanswered (clntp : Client) (aclClntp : Option Client) (d : Daemon) (es : List Event)
    (d' : Daemon) : Prop :=
  (∀ e ∈ es, reconnectFailed e = false) → (∀ e ∈ es, isReply e = false) →
    d.LiveWith clntp aclClntp → d'.Live

/-- The operation does not use the client that it keeps, if its call is not answered. -/
def GivesUp (clntp : Client) (aclClntp : Option Client) {α : Type} (x : Hs α) : Prop :=
  Evolves (LiveUnanswered clntp aclClntp) x

/-- What makes no call keeps the clients. -/
theorem AllocFrame.live (I : Daemon → Prop) : AllocFrame (Evolves (Guarded (fun _ ↦ false) I)) where
  closed := (Guarded.composes _ _).closed
  malloc := .ask fun _ _ _ h ↦ h

/-- A call through a client that is kept, if no reconnect fails. -/
theorem Daemon.LiveWith.ends_call {clntp : Client} {aclClntp : Option Client} {d : Daemon}
    (hd : d.LiveWith clntp aclClntp) {c : Client} (hc : c = clntp ∨ aclClntp = some c) (req : Rpc) :
    Ends (fun es res d' ↦ CallEvents req es res ∧ ((∀ e ∈ es, reconnectFailed e = false) → d'.Live))
      (fun _ _ _ ↦ False) (hsiNfs3ClntCall c req) d := by
  have hlive : Ends (fun es _ d' ↦ Guarded reconnectFailed Daemon.Live d es d')
      (fun es _ d' ↦ Guarded reconnectFailed Daemon.Live d es d') (hsiNfs3ClntCall c req) d :=
    fun tr ↦ Guarded.wp_call (fun _ h ↦ h) (fun _ ↦ rfl) (fun _ ↦ rfl)
      (fun _ _ _ h hown _ ↦ h.reconnect hown) (fun _ ↦ hd.owns hc) req tr
  exact ((Hsfs.ends_call (hd.owns hc) req).and hlive).mono
    (fun es res d' h ↦ ⟨h.1.1, fun hfail ↦ h.2 hfail hd.1⟩) fun _ _ _ h ↦ h.1

namespace GivesUp

variable {clntp : Client} {aclClntp : Option Client} {α β : Type} {x : Hs α} {f : α → Hs β}

/-- If the clients are not the given ones, nothing is claimed. -/
theorem of_not {d : Daemon} (hd : ¬ d.LiveWith clntp aclClntp) (x : Hs α) :
    Ends (fun es _ d' ↦ LiveUnanswered clntp aclClntp d es d')
      (fun es _ d' ↦ LiveUnanswered clntp aclClntp d es d') x d :=
  .of_forall (fun _ _ _ _ _ h ↦ absurd h hd) fun _ _ _ _ _ h ↦ absurd h hd

theorem pure (a : α) : GivesUp clntp aclClntp (Pure.pure a : Hs α) :=
  fun _ ↦ Ends.pure fun _ _ hd ↦ hd.1

theorem ite {c : Prop} [Decidable c] {x y : Hs α} (hx : GivesUp clntp aclClntp x)
    (hy : GivesUp clntp aclClntp y) : GivesUp clntp aclClntp (if c then x else y) := by
  split
  · exact hx
  · exact hy

/-- Something before the call. -/
theorem pre (hx : Evolves (Guarded (fun _ ↦ false) fun d ↦ d.LiveWith clntp aclClntp) x)
    (hf : ∀ a, GivesUp clntp aclClntp (f a)) : GivesUp clntp aclClntp (x >>= f) :=
  Evolves.seq hx hf
    (fun h h' hfail hreply hd ↦ h' (fun e he ↦ hfail e (List.mem_append_right _ he))
      (fun e he ↦ hreply e (List.mem_append_right _ he)) (h (fun _ _ ↦ rfl) hd))
    fun h _ _ hd ↦ (h (fun _ _ ↦ rfl) hd).1

theorem sbClntp {f : Client → Hs α} (hf : GivesUp clntp aclClntp (f clntp)) :
    GivesUp clntp aclClntp (sbClntp >>= f) := by
  intro d
  by_cases hd : d.LiveWith clntp aclClntp
  · refine Ends.ret_bind (x := Hsfs.sbClntp) rfl ?_
    rw [hd.2.1]
    exact hf d
  · exact of_not hd _

/-- The call, where an operation has nothing more to do if it fails. -/
theorem call {req : Rpc} {f : Except Int req.Res → Hs α}
    (hf : ∀ err, ∃ a, f (.error err) = Pure.pure a) :
    GivesUp clntp aclClntp (hsiNfs3ClntCall clntp req >>= f) := by
  intro d
  by_cases hd : d.LiveWith clntp aclClntp
  case neg => exact of_not hd _
  refine (hd.ends_call (.inl rfl) req).bind ?_ fun _ _ _ h ↦ h.elim
  rintro es (err | res) d' ⟨hcall, hlive⟩
  · obtain ⟨a, ha⟩ := hf err
    rw [ha]
    refine .pure fun hfail _ _ ↦ hlive fun e he ↦ ?_
    exact hfail e (List.mem_append_left _ he)
  · -- the reply is among the events
    have hreply : ∃ e ∈ es, isReply e = true := by
      cases hcall with
      | reply clnt res _ => exact ⟨_, List.mem_append_right _ (List.mem_singleton_self _), rfl⟩
    obtain ⟨e, he, hreply⟩ := hreply
    have hnone {es' : List Event} (h : ∀ e ∈ es ++ es', isReply e = false) : False :=
      Bool.false_ne_true ((h e (List.mem_append_left _ he)).symm.trans hreply)
    exact .of_forall (fun _ _ _ _ h _ ↦ (hnone h).elim) fun _ _ _ _ h _ ↦ (hnone h).elim

/-- The result is not used. -/
theorem done (hx : GivesUp clntp aclClntp x) (g : α → β) :
    GivesUp clntp aclClntp (x >>= fun a ↦ Pure.pure (g a)) := fun d ↦ Ends.map (hx d)

theorem setattr3 (p : Addr) (fattr : NfsFattr) (attr : HsfsIattr) :
    GivesUp clntp aclClntp (hsiNfs3Setattr p fattr attr) :=
  .sbClntp <| .pre ((AllocFrame.live _).getfh3 p) fun _ ↦ .call fun _ ↦ ⟨_, rfl⟩

theorem readlink (p : Addr) : GivesUp clntp aclClntp (hsiNfs3Readlink p) :=
  .pre ((AllocFrame.live _).getfh3 p) fun _ ↦ .sbClntp <| .call fun _ ↦ ⟨_, rfl⟩

theorem read (p : Addr) (off : UInt64) (size : UInt32) :
    GivesUp clntp aclClntp (hsiNfs3Read p off size) :=
  .sbClntp <| .pre ((AllocFrame.live _).getfh3 p) fun _ ↦ .call fun _ ↦ ⟨_, rfl⟩

theorem write (p : Addr) (off : UInt64) (size stable : UInt32) (data : List UInt8) :
    GivesUp clntp aclClntp (hsiNfs3Write p off size stable data) :=
  .sbClntp <| .pre ((AllocFrame.live _).getfh3 p) fun _ ↦ .call fun _ ↦ ⟨_, rfl⟩

theorem create (p : Addr) (name : Name) (mode : UInt32) :
    GivesUp clntp aclClntp (hsiNfs3Create p name mode) :=
  .pre ((AllocFrame.live _).load p) fun _ ↦ .sbClntp <| .call fun _ ↦ ⟨_, rfl⟩

theorem mknod (p : Addr) (name : Name) (mode : UInt32) (rdev : UInt64) :
    GivesUp clntp aclClntp (hsiNfs3Mknod p name mode rdev) :=
  .ite (.pure _) <| .pre ((AllocFrame.live _).getfh3 p) fun _ ↦ .pre (AllocFrame.live _).malloc
    fun _ ↦ .ite (.sbClntp <| .call fun _ ↦ ⟨_, rfl⟩) (.pure _)

theorem unlink (p : Addr) (name : Name) : GivesUp clntp aclClntp (hsiNfs3Unlink p name) :=
  .sbClntp <| .pre ((AllocFrame.live _).getfh3 p) fun _ ↦ .call fun _ ↦ ⟨_, rfl⟩

theorem rename (p : Addr) (name : Name) (q : Addr) (newname : Name) :
    GivesUp clntp aclClntp (hsiNfs3Rename p name q newname) :=
  .sbClntp <| .pre ((AllocFrame.live _).getfh3 p) fun _ ↦ .pre ((AllocFrame.live _).getfh3 q)
    fun _ ↦ .call fun _ ↦ ⟨_, rfl⟩

theorem link (p q : Addr) (name : Name) : GivesUp clntp aclClntp (hsiNfs3Link p q name) :=
  .ite (.pure _) <| .pre ((AllocFrame.live _).getfh3 p) fun _ ↦ .pre ((AllocFrame.live _).getfh3 q)
    fun _ ↦ .pre (AllocFrame.live _).malloc fun _ ↦ .ite (.sbClntp <| .call fun _ ↦ ⟨_, rfl⟩)
      (.pure _)

theorem cookieVerf (p : Addr) :
    Evolves (Guarded (fun _ ↦ false) fun d ↦ d.LiveWith clntp aclClntp) (getCookieVerf p) :=
  (AllocFrame.live _).bind ((AllocFrame.live _).load p) fun _ ↦ (AllocFrame.live _).pure _

theorem readdir (p : Addr) (count : UInt32) (cookie : UInt64) :
    GivesUp clntp aclClntp (hsiNfs3Readdir p count cookie) :=
  .sbClntp <| .pre (cookieVerf p) fun _ ↦ .pre ((AllocFrame.live _).getfh3 p) fun _ ↦
    .call fun _ ↦ ⟨_, rfl⟩

theorem readdirPlus (p : Addr) (count : UInt32) (cookie : UInt64) (maxcount : UInt32) :
    GivesUp clntp aclClntp (hsiNfs3ReaddirPlus p count cookie maxcount) :=
  .sbClntp <| .pre (cookieVerf p) fun _ ↦ .pre ((AllocFrame.live _).getfh3 p) fun _ ↦
    .call fun _ ↦ ⟨_, rfl⟩

theorem fsinfo (fh : NfsFh) (fattr : NfsFattr) : GivesUp clntp aclClntp (hsiNfs3Fsinfo fh fattr) :=
  .sbClntp <| .call fun _ ↦ ⟨_, rfl⟩

theorem pathconf (p : Addr) : GivesUp clntp aclClntp (hsiNfs3Pathconf p) :=
  .sbClntp <| .pre ((AllocFrame.live _).getfh3 p) fun _ ↦ .call fun _ ↦ ⟨_, rfl⟩

end GivesUp

end GivesUp

/-! ## Calls of the ACL service

`hsi_nfs3_setxattr` makes two calls, and frees the first reply before it makes the second one.  Here
a reconnect does no harm if no reply is freed behind it. -/

section Spared

/-- After this event, a reply is freed through the client that the operation keeps.  For a reply
with lists, there has to be memory for them first. -/
def freesNext : Event → Bool
  | ⟨.clntCall _ req, .done res⟩ => !isAclReply req res
  | ⟨.malloc, got⟩ => got
  | _ => false

theorem freesNext_reply (clnt : Client) (req : Rpc) (res : req.Res) :
    freesNext ⟨.clntCall clnt req, .done res⟩ = !isAclReply req res := rfl

/-- There is no reconnect up to some point, and no reply is freed from there on. -/
def Spared (es : List Event) : Prop :=
  ∃ es₁ es₂, es = es₁ ++ es₂ ∧ (∀ e ∈ es₁, isReconnect e = false) ∧ ∀ e ∈ es₂, freesNext e = false

namespace Spared

variable {es es' : List Event}

/-- Behind a reconnect, no reply is freed. -/
theorem freesNext_eq_false (h : Spared (es ++ es')) {e : Event} (he : e ∈ es)
    (hrec : isReconnect e = true) : ∀ e ∈ es', freesNext e = false := by
  obtain ⟨es₁, es₂, heq, hnone, hfree⟩ := h
  rcases List.append_eq_append_iff.1 heq with ⟨cs, rfl, -⟩ | ⟨cs, -, rfl⟩
  · have hfalse := hnone e (List.mem_append_left _ he)
    exact absurd (hfalse.symm.trans hrec) Bool.false_ne_true
  · exact fun e he ↦ hfree e (List.mem_append_right _ he)

theorem left (h : Spared (es ++ es')) : Spared es := by
  obtain ⟨es₁, es₂, heq, hnone, hfree⟩ := h
  rcases List.append_eq_append_iff.1 heq with ⟨cs, rfl, -⟩ | ⟨cs, rfl, rfl⟩
  · exact ⟨es, [], (List.append_nil es).symm, fun e he ↦ hnone e (List.mem_append_left _ he),
      fun _ he ↦ absurd he List.not_mem_nil⟩
  · exact ⟨es₁, cs, rfl, hnone, fun e he ↦ hfree e (List.mem_append_left _ he)⟩

theorem right (h : Spared (es ++ es')) : Spared es' := by
  obtain ⟨es₁, es₂, heq, hnone, hfree⟩ := h
  rcases List.append_eq_append_iff.1 heq with ⟨cs, rfl, rfl⟩ | ⟨cs, rfl, rfl⟩
  · exact ⟨cs, es₂, rfl, fun e he ↦ hnone e (List.mem_append_right _ he), hfree⟩
  · exact ⟨[], es', rfl, fun _ he ↦ absurd he List.not_mem_nil,
      fun e he ↦ hfree e (List.mem_append_right _ he)⟩

end Spared

/-- **After a reconnect, the result is like `R`, and the clients are live**, if no reconnect fails
and the kept client is spared. -/
def SparesClient (clntp : Client) (aclClntp : Option Client) {α : Type} (R : α → Prop) (x : Hs α) :
    Prop :=
  ∀ d, d.LiveWith clntp aclClntp →
    Ends (fun es a d' ↦ (∀ e ∈ es, reconnectFailed e = false) → Spared es →
        (∃ e ∈ es, isReconnect e = true) → d'.Live ∧ R a)
      (fun es _ d' ↦ (∀ e ∈ es, reconnectFailed e = false) → Spared es →
        (∃ e ∈ es, isReconnect e = true) → d'.Live) x d

/-- Without failed reconnects and freed replies, the clients stay live and the result is like
`R`. -/
def EndsQuietly {α : Type} (R : α → Prop) (x : Hs α) : Prop :=
  ∀ d, d.Live →
    Ends (fun es a d' ↦ (∀ e ∈ es, freesNext e = false) → d'.Live ∧ R a)
      (fun es _ d' ↦ (∀ e ∈ es, freesNext e = false) → d'.Live) x d

/-- There is no reconnect among the events. -/
def NoReconnect (_ : Daemon) (es : List Event) (_ : Daemon) : Prop :=
  ∀ e ∈ es, isReconnect e = false

theorem NoReconnect.composes : Composes NoReconnect where
  nil := fun _ _ he ↦ absurd he List.not_mem_nil
  append := fun h h' e he ↦ (List.mem_append.1 he).elim (h e) (h' e)

theorem AllocFrame.noReconnect : AllocFrame (Evolves NoReconnect) where
  closed := NoReconnect.composes.closed
  malloc := .ask fun _ _ _ he ↦ by rw [List.mem_singleton.1 he]; rfl

theorem NoReconnect.freeres (c : Client) : Evolves NoReconnect (clntFreeres c) :=
  .modify fun _ _ he ↦ absurd he List.not_mem_nil

theorem NoReconnect.freeresSb : Evolves NoReconnect freeresSb :=
  .get_bind fun _ ↦ freeres _

namespace SparesClient

variable {clntp : Client} {aclClntp : Option Client} {α β : Type} {R : α → Prop} {R' : β → Prop}
  {x : Hs α} {f : α → Hs β}

theorem of_noReconnect (hx : Evolves NoReconnect x) : SparesClient clntp aclClntp R x := by
  have hnone {es : List Event} (h : ∀ e ∈ es, isReconnect e = false) :
      ¬ ∃ e ∈ es, isReconnect e = true := fun ⟨e, he, hrec⟩ ↦
    Bool.false_ne_true ((h e he).symm.trans hrec)
  exact fun d _ ↦ (Ends.of_evolves hx d).mono (fun _ _ _ h _ _ hrec ↦ absurd hrec (hnone h))
    fun _ _ _ h _ _ hrec ↦ absurd hrec (hnone h)

/-- One thing after the other: behind a reconnect, the rest is quiet. -/
theorem bind (hx : SparesClient clntp aclClntp R x)
    (hkeep : Evolves (Guarded isReconnect fun d ↦ d.LiveWith clntp aclClntp) x)
    (hf : ∀ a, SparesClient clntp aclClntp R' (f a)) (hquiet : ∀ a, R a → EndsQuietly R' (f a)) :
    SparesClient clntp aclClntp R' (x >>= f) := by
  intro d hd
  refine ((hx d hd).and (.of_evolves hkeep d)).bind ?_ fun _ _ _ h ↦ h.1
  rintro es a d₁ ⟨hspares, hkept⟩
  by_cases hrec : ∃ e ∈ es, isReconnect e = true
  · by_cases hok : (∀ e ∈ es, reconnectFailed e = false) ∧ Spared es
    · obtain ⟨e, he, hrece⟩ := hrec
      obtain ⟨hlive, hR⟩ := hspares hok.1 hok.2 ⟨e, he, hrece⟩
      exact (hquiet a hR d₁ hlive).mono
        (fun _ _ _ h _ hspared _ ↦ h (hspared.freesNext_eq_false he hrece))
        fun _ _ _ h _ hspared _ ↦ h (hspared.freesNext_eq_false he hrece)
    · have hnot {es' : List Event} (hfail : ∀ e ∈ es ++ es', reconnectFailed e = false)
          (hspared : Spared (es ++ es')) : False :=
        hok ⟨fun e he ↦ hfail e (List.mem_append_left _ he), hspared.left⟩
      exact .of_forall (fun _ _ _ hfail hspared _ ↦ (hnot hfail hspared).elim)
        fun _ _ _ hfail hspared _ ↦ (hnot hfail hspared).elim
  · have hnone : ∀ e ∈ es, isReconnect e = false := by
      simpa only [not_exists, not_and, Bool.not_eq_true] using hrec
    have hlater {es' : List Event} : (∃ e ∈ es ++ es', isReconnect e = true) →
        ∃ e ∈ es', isReconnect e = true := by
      rintro ⟨e, he, hrece⟩
      exact ⟨e, (List.mem_append.1 he).resolve_left fun he ↦ hrec ⟨e, he, hrece⟩, hrece⟩
    refine (hf a d₁ (hkept hnone hd)).mono ?_ ?_
    all_goals
      intro _ _ _ h hfail hspared hrec'
      exact h (fun e he ↦ hfail e (List.mem_append_right _ he)) hspared.right (hlater hrec')

/-- Something before the call. -/
theorem pre (hx : ∀ {P : {α : Type} → Hs α → Prop}, AllocFrame @P → P x)
    (hf : ∀ a, SparesClient clntp aclClntp R' (f a)) : SparesClient clntp aclClntp R' (x >>= f) :=
  bind (R := fun _ ↦ False) (of_noReconnect (hx AllocFrame.noReconnect))
    (hx (HandleFrame.live clntp aclClntp).toAllocFrame) hf fun _ h ↦ h.elim

theorem sbAclClntp {f : Option Client → Hs α} (hf : SparesClient clntp aclClntp R (f aclClntp)) :
    SparesClient clntp aclClntp R (sbAclClntp >>= f) := by
  intro d hd
  refine Ends.ret_bind (x := Hsfs.sbAclClntp) rfl ?_
  rw [hd.2.2]
  exact hf d hd

/-- A call: if it is answered behind a reconnect, then with lists. -/
theorem call {c : Client} (hc : aclClntp = some c) (req : Rpc) :
    SparesClient clntp aclClntp (fun r ↦ ∀ res, r = .ok res → isAclReply req res = true)
      (hsiNfs3ClntCall c req) := by
  intro d hd
  refine (hd.ends_call (.inr hc) req).mono ?_ fun _ _ _ h ↦ h.elim
  rintro es r d' ⟨hcall, hlive⟩ hfail hspared ⟨e, he, hrec⟩
  refine ⟨hlive hfail, ?_⟩
  rintro res rfl
  cases hcall with
  | reply clnt res _ =>
      -- the reconnect is before the reply
      have hbefore := (List.mem_append.1 he).resolve_right fun he ↦ by
        rw [List.mem_singleton.1 he] at hrec
        exact Bool.false_ne_true hrec
      have hfrees := hspared.freesNext_eq_false hbefore hrec _ (List.mem_singleton_self _)
      rwa [freesNext_reply, Bool.not_eq_false'] at hfrees

/-- The result is not used. -/
theorem done (hx : SparesClient clntp aclClntp R x) :
    SparesClient clntp aclClntp (fun _ : Unit ↦ True) (x >>= fun _ ↦ Pure.pure ()) :=
  fun d hd ↦ .map ((hx d hd).mono
    (fun _ _ _ h hfail hspared hrec ↦ ⟨(h hfail hspared hrec).1, trivial⟩) fun _ _ _ h ↦ h)

theorem getxattr (p : Addr) (mask : UInt32) (type : AclType) :
    SparesClient clntp aclClntp (fun r ↦ ∃ err, r = .error err) (hsiNfs3Getxattr p mask type) := by
  refine .pre (fun hr ↦ hr.getfh3 p) fun fh ↦ .sbAclClntp ?_
  cases aclClntp with
  | none => exact .of_noReconnect (AllocFrame.noReconnect.pure _)
  | some c =>
      refine .bind (.call rfl _) ((HandleFrame.live _ _).anyCall c (.inr rfl) _)
        (fun r ↦ .of_noReconnect ?_) fun r hr ↦ ?_
      · have hr := AllocFrame.noReconnect
        rcases r with err | (acl | status)
        · exact hr.pure _
        · refine hr.bind hr.malloc fun got ↦ hr.ite (hr.bind (NoReconnect.freeres c) fun _ ↦ ?_)
            (hr.map NoReconnect.freeresSb)
          cases type <;> exact hr.pure _
        · exact hr.map (NoReconnect.freeres c)
      · intro d hd
        rcases r with err | (acl | status)
        · exact .pure fun _ ↦ ⟨hd, err, rfl⟩
        · -- without memory for the lists, the reply is freed through the client of the superblock
          refine ends_malloc_bind fun got ↦ ?_
          cases got with
          | false =>
              refine .of_ret rfl fun _ ↦ ⟨?_, _, rfl⟩
              change (d.useClient d.sb.clntp).Live
              rwa [hd.useClient_eq (.inl rfl)]
          | true =>
              have hnot {es : List Event} (h : ∀ e ∈ ⟨.malloc, true⟩ :: es, freesNext e = false) :
                  False := by
                have hmalloc : freesNext ⟨.malloc, true⟩ = false := h _ List.mem_cons_self
                exact Bool.false_ne_true hmalloc.symm
              exact .of_forall (fun _ _ _ h ↦ (hnot h).elim) fun _ _ _ h ↦ (hnot h).elim
        · exact absurd (hr _ rfl) Bool.false_ne_true

/-- `SETACL`, with which an operation ends. -/
theorem setxattrCall {c : Client} (hc : aclClntp = some c) (fh : NfsFh) (args : Secattr) :
    SparesClient clntp aclClntp (fun _ ↦ True) (setxattrCall c fh args) := by
  refine .bind (.call hc _) ((HandleFrame.live _ _).anyCall c (.inr hc) _)
    (fun r ↦ .of_noReconnect ?_) fun r hr d hd ↦ ?_
  · have hr := AllocFrame.noReconnect
    rcases r with err | (done | status)
    · exact hr.pure _
    · exact hr.map (NoReconnect.freeres c)
    · exact hr.map (NoReconnect.freeres c)
  · rcases r with err | (done | status)
    · exact .pure fun _ ↦ ⟨hd, trivial⟩
    · exact absurd (hr _ rfl) Bool.false_ne_true
    · exact absurd (hr _ rfl) Bool.false_ne_true

theorem setxattrLists (p : Addr) {c : Client} (hc : aclClntp = some c) (mode : UInt32)
    (acl dfacl : Option PosixAcl) :
    SparesClient clntp aclClntp (fun _ ↦ True) (setxattrLists p c mode acl dfacl) :=
  setxattrLists_of pre (.of_noReconnect (AllocFrame.noReconnect.pure 0)) (setxattrCall hc) p mode
    acl dfacl

/-- Behind a reconnect in the call that fetches the other list, nothing follows. -/
theorem setxattr (p : Addr) (value : List UInt8) (type : AclType) :
    SparesClient clntp aclClntp (fun _ ↦ True) (hsiNfs3Setxattr p value type) := by
  refine .sbAclClntp ?_
  cases aclClntp with
  | none => exact .of_noReconnect (AllocFrame.noReconnect.pure _)
  | some c =>
      refine .pre (fun hr ↦ hr.load p) fun i ↦ .pre (fun hr ↦ hr.posixAclFromXattrAlloc value)
        fun acl ↦ ?_
      split
      · refine .bind (.getxattr p _ type) ((HandleFrame.live _ _).getxattr p _ type) (fun r ↦ ?_) ?_
        · cases r with
          | error err => exact .of_noReconnect (AllocFrame.noReconnect.pure _)
          | ok fetched => cases type <;> exact .setxattrLists p rfl _ _ _
        · rintro _ ⟨err, rfl⟩ d hd
          exact .pure fun _ ↦ ⟨hd, trivial⟩
      · cases type with
        | access => exact .setxattrLists p rfl _ _ _
        | default => exact .of_noReconnect (AllocFrame.noReconnect.pure _)

end SparesClient

end Spared

/-! ## Sequences of operations -/

/-- An operation of `hsi_nfs3_*`, with its arguments. -/
inductive NfsOp : Type
  | getattr (inode : Addr) (st : Option Stat)
  | setattr (inode : Addr) (fattr : NfsFattr) (attr : HsfsIattr)
  | lookup (parent : Addr) (name : Name)
  | access (inode : Addr) (mask : UInt32)
  | readlink (inode : Addr)
  | read (inode : Addr) (rwOff : UInt64) (rwSize : UInt32)
  | write (inode : Addr) (rwOff : UInt64) (rwSize stable : UInt32) (data : List UInt8)
  | create (hi : Addr) (name : Name) (mode : UInt32)
  | mkdir (parent : Addr) (name : Name) (mode : UInt32)
  | symlink (parent : Addr) (link name : Name)
  | mknod (parent : Addr) (name : Name) (mode : UInt32) (rdev : UInt64)
  | unlink (parent : Addr) (name : Name)
  | rmdir (parent : Addr) (name : Name)
  | rename (parent : Addr) (name : Name) (newparent : Addr) (newname : Name)
  | link (inode newparent : Addr) (name : Name)
  | readdir (parent : Addr) (count : UInt32) (cookie : UInt64)
  | readdirPlus (parent : Addr) (count : UInt32) (cookie : UInt64) (maxcount : UInt32)
  | statfs (inode : Addr)
  | fsinfo (fh : NfsFh) (fattr : NfsFattr)
  | pathconf (inode : Addr)
  | getxattr (inode : Addr) (mask : UInt32) (type : AclType)
  | setxattr (inode : Addr) (value : List UInt8) (type : AclType)

namespace NfsOp

/-- The operation, without its result. -/
def exec : NfsOp → Hs Unit
  | .getattr inode st => do let _ ← hsiNfs3Getattr inode st
  | .setattr inode fattr attr => do let _ ← hsiNfs3Setattr inode fattr attr
  | .lookup parent name => do let _ ← hsiNfs3Lookup parent name
  | .access inode mask => do let _ ← hsiNfs3Access inode mask
  | .readlink inode => do let _ ← hsiNfs3Readlink inode
  | .read inode rwOff rwSize => do let _ ← hsiNfs3Read inode rwOff rwSize
  | .write inode rwOff rwSize stable data => do
      let _ ← hsiNfs3Write inode rwOff rwSize stable data
  | .create hi name mode => do let _ ← hsiNfs3Create hi name mode
  | .mkdir parent name mode => do let _ ← hsiNfs3Mkdir parent name mode
  | .symlink parent target name => do let _ ← hsiNfs3Symlink parent target name
  | .mknod parent name mode rdev => do let _ ← hsiNfs3Mknod parent name mode rdev
  | .unlink parent name => do let _ ← hsiNfs3Unlink parent name
  | .rmdir parent name => do let _ ← hsiNfs3Rmdir parent name
  | .rename parent name newparent newname => do
      let _ ← hsiNfs3Rename parent name newparent newname
  | .link inode newparent name => do let _ ← hsiNfs3Link inode newparent name
  | .readdir parent count cookie => do let _ ← hsiNfs3Readdir parent count cookie
  | .readdirPlus parent count cookie maxcount => do
      let _ ← hsiNfs3ReaddirPlus parent count cookie maxcount
  | .statfs inode => do let _ ← hsiNfs3Statfs inode
  | .fsinfo fh fattr => do let _ ← hsiNfs3Fsinfo fh fattr
  | .pathconf inode => do let _ ← hsiNfs3Pathconf inode
  | .getxattr inode mask type => do let _ ← hsiNfs3Getxattr inode mask type
  | .setxattr inode value type => do let _ ← hsiNfs3Setxattr inode value type

/-- The operation keeps the client that it has read from the superblock in a variable. -/
def keepsClient : NfsOp → Bool
  | .getattr _ _ | .lookup _ _ | .mkdir _ _ _ | .symlink _ _ _ | .rmdir _ _ | .statfs _ => false
  | _ => true

/-- The operation does not use a client again that it has read before a reconnect. -/
def Spares : NfsOp → List Event → Prop
  -- `clnt_freeres` comes even if the call has failed
  | .access _ _, es => ∀ e ∈ es, isReconnect e = false
  | .getxattr _ _ _, es | .setxattr _ _ _, es => Spared es
  | op, es => op.keepsClient = true →
      (∀ e ∈ es, isReconnect e = false) ∨ ∀ e ∈ es, isReply e = false

/-- Every reconnect during the operation succeeds, and the operation does not use a client that has
been replaced in it. -/
structure Calm (op : NfsOp) (es : List Event) : Prop where
  reconnects : ∀ e ∈ es, reconnectFailed e = false
  spares : op.Spares es

theorem exec_of_keepsClient {r : Daemon → List Event → Daemon → Prop} {C : Client → Prop}
    (hr : HandleFrame (Evolves r) C) (hput : ∀ p, Evolves r (hsfsIput p)) (op : NfsOp) :
    Evolves r op.exec := by
  cases op with
  | getattr inode st => exact hr.map (hr.getattr inode st)
  | setattr inode fattr attr => exact hr.map (hr.setattr3 inode fattr attr)
  | lookup parent name => exact hr.map (hr.lookup parent name)
  | access inode mask => exact hr.map (hr.access inode mask)
  | readlink inode => exact hr.map (hr.readlink inode)
  | read inode rwOff rwSize => exact hr.map (hr.read inode rwOff rwSize)
  | write inode rwOff rwSize stable data =>
      exact hr.map (hr.write inode rwOff rwSize stable data)
  | create hi name mode => exact hr.map (hr.create hi name mode)
  | mkdir parent name mode => exact hr.map (hr.mkdir parent name mode)
  | symlink parent target name => exact hr.map (hr.symlink parent target name)
  | mknod parent name mode rdev => exact hr.map (hr.mknod parent name mode rdev)
  | unlink parent name => exact hr.map (hr.unlink parent name)
  | rmdir parent name => exact hr.map (hr.rmdir parent name)
  | rename parent name newparent newname =>
      exact hr.map (hr.rename parent name newparent newname)
  | link inode newparent name => exact hr.map (hr.link inode newparent name)
  | readdir parent count cookie => exact hr.map (hr.readdir parent count cookie)
  | readdirPlus parent count cookie maxcount =>
      exact hr.map (hr.readdirPlus hput parent count cookie maxcount)
  | statfs inode => exact hr.map (hr.statfs inode)
  | fsinfo fh fattr => exact hr.map (hr.fsinfo fh fattr)
  | pathconf inode => exact hr.map (hr.pathconf inode)
  | getxattr inode mask type => exact hr.map (hr.getxattr inode mask type)
  | setxattr inode value type => exact hr.map (hr.setxattr inode value type)

theorem exec_of_not_keepsClient {r : Daemon → List Event → Daemon → Prop} (hr : Frame (Evolves r))
    {op : NfsOp} (hop : op.keepsClient = false) : Evolves r op.exec := by
  cases op with
  | getattr inode st => exact hr.map (hr.getattr inode st)
  | lookup parent name => exact hr.map (hr.lookup parent name)
  | mkdir parent name mode => exact hr.map (hr.mkdir parent name mode)
  | symlink parent target name => exact hr.map (hr.symlink parent target name)
  | rmdir parent name => exact hr.map (hr.rmdir parent name)
  | statfs inode => exact hr.map (hr.statfs inode)
  | _ => exact nomatch hop

section live

variable {op : NfsOp} {d d' : Daemon} {es : List Event} {out : Except Fault Unit}

/-- Without a reconnect. -/
theorem live_of_noReconnect (h : Prog.Exec Server.record (op.exec.run d) [] (out, d') es)
    (hes : ∀ e ∈ es, isReconnect e = false) (hd : d.Live) : d'.Live := by
  have hput (p : Addr) : Evolves (Guarded isReconnect fun d' ↦
      d'.LiveWith d.sb.clntp d.sb.aclClntp) (hsfsIput p) :=
    (CacheOnly.iput p).mono fun _ _ _ h _ hd ↦ hd.congr h.clients h.clntp h.aclClntp
  obtain ⟨es', rfl, hkeep⟩ := (exec_of_keepsClient (HandleFrame.live d.sb.clntp d.sb.aclClntp)
    hput op).of_exec h
  exact (hkeep hes ⟨hd, rfl, rfl⟩).1

/-- An operation that keeps its client, other than `access` and those of the ACL service. -/
def freesOnlyReplies : NfsOp → Bool
  | .access _ _ | .getxattr _ _ _ | .setxattr _ _ _ => false
  | op => op.keepsClient

theorem givesUp {clntp : Client} {aclClntp : Option Client} (hop : op.freesOnlyReplies = true) :
    GivesUp clntp aclClntp op.exec := by
  cases op with
  | setattr inode fattr attr => exact .done (.setattr3 inode fattr attr) _
  | readlink inode => exact .done (.readlink inode) _
  | read inode rwOff rwSize => exact .done (.read inode rwOff rwSize) _
  | write inode rwOff rwSize stable data => exact .done (.write inode rwOff rwSize stable data) _
  | create hi name mode => exact .done (.create hi name mode) _
  | mknod parent name mode rdev => exact .done (.mknod parent name mode rdev) _
  | unlink parent name => exact .done (.unlink parent name) _
  | rename parent name newparent newname => exact .done (.rename parent name newparent newname) _
  | link inode newparent name => exact .done (.link inode newparent name) _
  | readdir parent count cookie => exact .done (.readdir parent count cookie) _
  | readdirPlus parent count cookie maxcount =>
      exact .done (.readdirPlus parent count cookie maxcount) _
  | fsinfo fh fattr => exact .done (.fsinfo fh fattr) _
  | pathconf inode => exact .done (.pathconf inode) _
  | _ => exact absurd hop Bool.false_ne_true

/-- With a reconnect, behind which the client that is kept is spared. -/
theorem live_of_spared {R : Unit → Prop} {x : Hs Unit}
    (hx : SparesClient d.sb.clntp d.sb.aclClntp R x)
    (h : Prog.Exec Server.record (x.run d) [] (out, d') es) (hd : d.Live)
    (hfail : ∀ e ∈ es, reconnectFailed e = false) (hspared : Spared es)
    (hrec : ∃ e ∈ es, isReconnect e = true) : d'.Live := by
  have hends := hx d ⟨hd, rfl, rfl⟩
  cases out with
  | ok _ => exact (hends.exec_ok h hfail hspared hrec).1
  | error _ => exact hends.exec_error h hfail hspared hrec

/-- **One operation keeps the clients live**, if its reconnects are calm. -/
theorem live_of_calm (h : Prog.Exec Server.record (op.exec.run d) [] (out, d') es)
    (hcalm : op.Calm es) (hd : d.Live) : d'.Live := by
  obtain ⟨hfail, hspares⟩ := hcalm
  by_cases hes : ∀ e ∈ es, isReconnect e = false
  · exact live_of_noReconnect h hes hd
  have hrec : ∃ e ∈ es, isReconnect e = true := by
    simpa only [not_forall, exists_prop, Bool.not_eq_false] using hes
  have hothers (hop : op.freesOnlyReplies = true)
      (hreply : (∀ e ∈ es, isReconnect e = false) ∨ ∀ e ∈ es, isReply e = false) : d'.Live := by
    obtain ⟨es', rfl, hlive⟩ := Evolves.of_exec (givesUp hop) h
    exact hlive hfail (hreply.resolve_left hes) ⟨hd, rfl, rfl⟩
  cases op with
  | access => exact absurd hspares hes
  | getxattr inode mask type =>
      exact live_of_spared (.done (.getxattr inode mask type)) h hd hfail hspares hrec
  | setxattr inode value type =>
      exact live_of_spared (.done (.setxattr inode value type)) h hd hfail hspares hrec
  | getattr | lookup | mkdir | symlink | rmdir | statfs =>
      obtain ⟨es', rfl, hkeep⟩ := (exec_of_not_keepsClient Frame.live rfl).of_exec h
      exact hkeep hfail hd
  | _ => exact hothers rfl (hspares rfl)

end live

end NfsOp

/-- Operations one after the other, each with its events.  An operation that ends in a fault
counts with the state that it has left behind. -/
inductive NfsRun (d₀ : Daemon) : List (NfsOp × List Event) → Daemon → Prop
  | nil : NfsRun d₀ [] d₀
  | snoc {ops : List (NfsOp × List Event)} {d d' : Daemon} {op : NfsOp} {es : List Event}
      {out : Except Fault Unit} : NfsRun d₀ ops d →
      Prog.Exec Server.record (op.exec.run d) [] (out, d') es → NfsRun d₀ (ops ++ [(op, es)]) d'

namespace NfsRun

variable {d₀ d : Daemon} {ops : List (NfsOp × List Event)}

theorem live (h : NfsRun d₀ ops d) (h₀ : d₀.Live) (hcalm : ∀ o ∈ ops, o.1.Calm o.2) : d.Live := by
  induction h with
  | nil => exact h₀
  | snoc _ hx ih =>
      refine NfsOp.live_of_calm hx (hcalm _ (List.mem_append_right _ (List.mem_singleton_self _)))
        ?_
      exact ih fun o ho ↦ hcalm o (List.mem_append_left _ ho)

/-- **In a run in which every reconnect succeeds and no operation uses a client that it has read
before one, the superblock has an open client and no closed client is used.** -/
theorem handles_live (h : NfsRun d₀ ops d) (h₀ : d₀.Live) (hcalm : ∀ o ∈ ops, o.1.Calm o.2) :
    d.clients.IsOpen d.sb.clntp ∧ d.clients.misused = [] :=
  ⟨(h.live h₀ hcalm).clntp, (h.live h₀ hcalm).misused⟩

/-- The sample daemon starts with live clients. -/
private theorem live_sampleMount {d : Daemon} (h : sampleMount = some d) : d.Live := by
  have hclients : sampleMount.map (fun d ↦ (d.clients, d.sb.clntp, d.sb.aclClntp)) =
      some (⟨2, [], []⟩, 0, some 1) := by decide +kernel
  rw [h] at hclients
  obtain ⟨hc, h'⟩ := Prod.mk.inj (Option.some.inj hclients)
  obtain ⟨hclntp, hacl⟩ := Prod.mk.inj h'
  exact (Daemon.start_live .sample .sample).congr hc hclntp hacl

/-- Run one operation on the sample daemon with the answers of a table. -/
private def playOp (g : (c : Call) → Option c.Res) (op : Daemon → NfsOp) :
    Option (Daemon × List Event × Daemon) :=
  sampleMount.bind fun d ↦ match ((op d).exec.run d).eval (Prog.recorded g) [] with
    | some ((.ok (), d'), es) => some (d, es, d')
    | _ => none

private theorem run_of_playOp {g : (c : Call) → Option c.Res} {op : Daemon → NfsOp} {d d' : Daemon}
    {es : List Event} (h : playOp g op = some (d, es, d')) :
    sampleMount = some d ∧ NfsRun d [(op d, es)] d' := by
  obtain ⟨d₀, hd₀, h⟩ := Option.bind_eq_some_iff.1 h
  split at h
  · next heval =>
      cases h
      exact ⟨hd₀, NfsRun.nil.snoc (Prog.exec_record_of_eval heval)⟩
  · exact nomatch h

/-- A server to which the first connection is lost. -/
private def lostOnce : (c : Call) → Option c.Res
  | .clntCall 0 _ => some (.failed Errno.notconn)
  | c => sampleAnswer c

/-- A reconnect in an operation that does not keep its client. -/
theorem handles_live_getattr : ∃ d es d', NfsRun d [(.getattr d.sb.root none, es)] d' ∧
    es.any isReconnect = true ∧ d'.sb.clntp ≠ d.sb.clntp ∧
    d'.clients.IsOpen d'.sb.clntp ∧ d'.clients.misused = [] := by
  have hplay : (playOp lostOnce fun d ↦ .getattr d.sb.root none).any
      (fun r ↦ r.2.1.any isReconnect && r.2.1.all (fun e ↦ !reconnectFailed e) &&
        r.2.2.sb.clntp != r.1.sb.clntp) = true := by decide +kernel
  obtain ⟨⟨d, es, d'⟩, hplay, h⟩ := (Option.any_eq_true _ _).1 hplay
  obtain ⟨h, hnew⟩ := Bool.and_eq_true_iff.1 h
  obtain ⟨hrec, hfail⟩ := Bool.and_eq_true_iff.1 h
  obtain ⟨hd, hrun⟩ := run_of_playOp hplay
  refine ⟨d, es, d', hrun, hrec, bne_iff_ne.1 hnew,
    handles_live hrun (live_sampleMount hd) fun o ho ↦ ?_⟩
  rw [List.mem_singleton.1 ho]
  refine ⟨fun e he ↦ ?_, fun hkeeps ↦ absurd hkeeps Bool.false_ne_true⟩
  simpa using List.all_eq_true.1 hfail e he

theorem not_handles_live : ¬ ∀ (d₀ d : Daemon) (ops : List (NfsOp × List Event)), d₀.Live →
    NfsRun d₀ ops d → d.clients.IsOpen d.sb.clntp ∧ d.clients.misused = [] := by
  intro hall
  have hplay : (playOp lostOnce fun d ↦ .pathconf d.sb.root).any
      (fun r ↦ r.2.2.clients.misused == [0]) = true := by decide +kernel
  obtain ⟨⟨d, es, d'⟩, hplay, hmisused⟩ := (Option.any_eq_true _ _).1 hplay
  obtain ⟨hd, hrun⟩ := run_of_playOp hplay
  have hnil := (hall d d' _ (live_sampleMount hd) hrun).2
  rw [beq_iff_eq, hnil] at hmisused
  exact nomatch hmisused

end NfsRun

end Hsfs
