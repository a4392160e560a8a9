import Hsfs.Fuse.Identity

/-!
# Cookies and verifiers

A directory is read in pieces.  A cookie says where a piece begins, and it comes with a verifier by
which the server can tell whether the cookie is still good.  The kernel keeps the cookie for each
open stream, but the verifier is kept in the inode, and `__set_cookie_verf` overwrites it with every
reply.

We follow the verifiers through a session: `stored steps p` is the verifier of the last reply that
has been accepted for the inode at `p`, and this is what the inode holds (`Session.verfAt`).  A
stream that goes on reading sends it, whichever stream the reply was for.
-/

namespace Hsfs

open Interact Interact.Act Daemon

/-! ## What is sent -/

/-- The cookie and the verifier of a call that lists a directory. -/
def Rpc.listArgs : Rpc → Option (UInt64 × UInt64)
  | .readdir _ cookie verf _ | .readdirplus _ cookie verf _ _ => some (cookie, verf)
  | _ => none

theorem Rpc.listArgs_of_lists {req : Rpc} (h : req.lists = false) : req.listArgs = none := by
  cases req with
  | readdir | readdirplus => exact nomatch h
  | _ => rfl

/-- The cookies and verifiers that have been sent, once for each attempt. -/
def sent (es : List Event) : List (UInt64 × UInt64) := (asked es).filterMap Rpc.listArgs

theorem sent_append (es es' : List Event) : sent (es ++ es') = sent es ++ sent es' := by
  rw [sent, asked_append, List.filterMap_append]
  rfl

/-- The attributes of the directory and the verifier in a reply that lists it. -/
def pageBy : (req : Rpc) → req.Res → Option (Option Fattr3 × UInt64)
  | .readdir _ _ _ _, .ok resok => some (resok.dirAttributes, resok.cookieverf)
  | .readdirplus _ _ _ _ _, .ok resok => some (resok.dirAttributes, resok.cookieverf)
  | _, _ => none

/-- The attributes and verifiers in all replies that list a directory. -/
def pages (es : List Event) : List (Option Fattr3 × UInt64) := picked pageBy es

/-- A reply comes after a call. -/
theorem pages_of_sent {es : List Event} (h : sent es = []) : pages es = [] := by
  refine List.filterMap_eq_nil_iff.2 fun e he ↦ ?_
  have hargs : ∀ req, askedBy e = some req → req.listArgs = none := fun req hreq ↦
    List.filterMap_eq_nil_iff.1 h req (List.mem_filterMap.2 ⟨e, he, hreq⟩)
  obtain ⟨c, r⟩ := e
  cases c with
  | clntCall clnt req =>
      have hnone := hargs req rfl
      cases r with
      | failed err => rfl
      | done res =>
          cases req with
          | readdir | readdirplus => exact nomatch hnone
          | _ => rfl
  | _ => rfl

/-! ## What is stored -/

/-- The verifiers of all inodes, if those that have just been made start with zero. -/
def fresh (es : List Event) (f : Addr → UInt64) (q : Addr) : UInt64 :=
  if q ∈ created es then 0 else f q

theorem fresh_append (es es' : List Event) (f : Addr → UInt64) :
    fresh (es ++ es') f = fresh es' (fresh es f) := by
  funext q
  simp only [fresh, created_append, List.mem_append]
  by_cases h' : q ∈ created es'
  · rw [if_pos h', if_pos (.inr h')]
  · rw [if_neg h']
    exact if_congr (or_iff_left h') rfl rfl

theorem fresh_of_nil {es : List Event} (h : created es = []) (f : Addr → UInt64) :
    fresh es f = f := by
  funext q
  rw [fresh, h, if_neg List.not_mem_nil]

/-- The inodes hold the verifiers `f`. -/
def Daemon.VerfAt (d : Daemon) (f : Addr → UInt64) : Prop :=
  ∀ q i, d.heap q = some i → i.cookieverf = f q

/-- Nothing is listed, and the verifiers stay as they are. -/
structure Daemon.VerfKept (d : Daemon) (es : List Event) (d' : Daemon) : Prop where
  settled : d'.Settled
  silent : sent es = []
  verf : ∀ f, d.VerfAt f → d'.VerfAt (fresh es f)

/-- Code that lists nothing and leaves verifiers alone. -/
def KeepsVerf (d : Daemon) (es : List Event) (d' : Daemon) : Prop := d.Settled → d.VerfKept es d'

namespace KeepsVerf

theorem composes : Composes KeepsVerf where
  nil := fun _ hd ↦ ⟨hd, rfl, fun _ hf ↦ hf⟩
  append := by
    intro d d' d'' es es' h h' hd
    have hk := h hd
    have hk' := h' hk.settled
    refine ⟨hk'.settled, ?_, fun f hf ↦ ?_⟩
    · rw [sent_append, hk.silent, hk'.silent, List.append_nil]
    · rw [fresh_append]
      exact hk'.verf _ (hk.verf f hf)

variable {d d' : Daemon} {p : Addr} {i j : Inode}

/-- Nothing happens to the inodes. -/
theorem of_heap {es : List Event} (hsent : sent es = []) (hnew : created es = [])
    (hl : d'.layout = d.layout) (hh : d'.heap = d.heap) : KeepsVerf d es d' := by
  refine fun hd ↦ ⟨(KeepsIdentity.of_heap hnew hl hh hd).settled, hsent, fun f hf q i hi ↦ ?_⟩
  rw [fresh_of_nil hnew]
  exact hf q i (hh ▸ hi)

/-- An inode is overwritten. -/
theorem setInode (hi : d.heap p = some i) (hset : i.Settled → j.Settled) (hj : i.SameObject j)
    (hverf : j.cookieverf = i.cookieverf) : KeepsVerf d [] (d.setInode p j) := by
  refine fun hd ↦ ⟨(KeepsIdentity.setInode hi hset hj hd).settled, rfl, fun f hf q k hk ↦ ?_⟩
  rw [fresh_of_nil rfl]
  by_cases hq : q = p
  · subst hq
    rw [d.setInode_heap_self] at hk
    obtain rfl := Option.some.inj hk
    exact hverf.trans (hf q i hi)
  · rw [d.setInode_heap_of_ne hq] at hk
    exact hf q k hk

/-- An inode is made. -/
theorem create {es : List Event} (hsent : sent es = []) (hl : d'.layout = d.layout)
    (hnew : created es = [p]) (hfor : madeFor p es = some (j.fileid, j.fh))
    (hplace : Allocatable d.layout p) (hj : j.Settled) (hverf : j.cookieverf = 0)
    (hh : d'.heap = Function.update d.heap p (some j)) : KeepsVerf d es d' := by
  refine fun hd ↦ ⟨(KeepsIdentity.create hl hnew hfor hplace hj hh hd).settled, hsent,
    fun f hf q k hk ↦ ?_⟩
  rw [fresh, hnew]
  by_cases hq : q = p
  · rw [if_pos (List.mem_singleton.2 hq)]
    rw [hh, hq, Function.update_self] at hk
    exact Option.some.inj hk ▸ hverf
  · rw [if_neg (mt List.mem_singleton.1 hq)]
    rw [hh, Function.update_of_ne hq] at hk
    exact hf q k hk

/-- An inode is freed. -/
theorem free (d : Daemon) (p : Addr) : KeepsVerf d [] (d.free p) :=
  fun hd ↦ ⟨(KeepsIdentity.free d p hd).settled, rfl, fun _ hf q k hk ↦
    hf q k (free_heap_eq_some.1 hk).2⟩

/-! ## The functions of the cache -/

theorem refreshed_cookieverf (i : Inode) (fattr : NfsFattr) :
    (i.refreshed fattr).cookieverf = i.cookieverf := by
  unfold Inode.refreshed
  split
  · rfl
  · rfl

theorem fhget (fh : NfsFh) (fattr : NfsFattr) : Evolves KeepsVerf (hsiNfsFhget fh fattr) := by
  intro d
  by_cases hd : d.Settled
  · refine (hd.ends_hsiNfsFhget fh fattr).mono ?_ ?_
    · intro es p d' hgot
      cases hgot with
      | unusable _ _ => exact composes.nil d
      | denied _ _ _ => exact of_heap rfl rfl rfl rfl
      | found _ _ hi _ _ =>
          exact setInode hi Inode.settled_refreshed (Inode.sameObject_refreshed fattr)
            (refreshed_cookieverf _ fattr)
      | @new a id _ _ =>
          exact create rfl rfl rfl (madeFor_malloc a) (heap_freeAddr a).2
            (Inode.settled_newInode _ _ id) rfl rfl
    · intro es _ d' hfault
      cases hfault with
      | chain => exact composes.nil d
      | @number a id =>
          exact create rfl rfl rfl (madeFor_malloc a) (heap_freeAddr a).2
            (Inode.settled_initInode _ _) rfl rfl
  · exact Ends.of_forall (fun _ _ _ h ↦ absurd h hd) fun _ _ _ h ↦ absurd h hd

/-- Overwriting a field other than the verifier. -/
theorem update (p : Addr) {f : Inode → Inode} (hset : ∀ i : Inode, i.Settled → (f i).Settled)
    (hsame : ∀ i : Inode, i.SameObject (f i))
    (hverf : ∀ i : Inode, (f i).cookieverf = i.cookieverf) :
    Evolves KeepsVerf (update p f) :=
  evolves_update composes fun _ i hi ↦ setInode hi (hset i) (hsame i) (hverf i)

/-! ## The functions that call the server -/

theorem freeres (c : Client) : Evolves KeepsVerf (clntFreeres c) :=
  .modify fun _ ↦ of_heap rfl rfl rfl rfl

theorem call (clnt : Client) {req : Rpc} (hreq : req.lists = false) :
    Evolves KeepsVerf (hsiNfs3ClntCall clnt req) := by
  have hasks : Evolves (OnlyAsks fun req ↦ req.listArgs = none) (hsiNfs3ClntCall clnt req) :=
    OnlyAsks.call (Rpc.listArgs_of_lists hreq) clnt
  refine ((ClientsOnly.call clnt req).and (hasks.and (created_call clnt req))).mono ?_
  rintro d es d' ⟨honly, hasks, hnew⟩
  exact of_heap (List.filterMap_eq_nil_iff.2 hasks) hnew honly.layout honly.heap

end KeepsVerf

/-- **The operations that list no directory leave verifiers alone.** -/
theorem ObjectFrame.keepsVerf : ObjectFrame (Evolves KeepsVerf) fun _ ↦ True where
  closed := KeepsVerf.composes.closed
  malloc := .ask fun _ _ ↦ .of_heap rfl rfl rfl rfl
  callSb := fun _ hreq ↦ .get_bind fun d ↦ KeepsVerf.call d.sb.clntp hreq
  freeresSb := .get_bind fun d ↦ KeepsVerf.freeres d.sb.clntp
  super := fun _ _ ↦ .modify fun _ ↦ .of_heap rfl rfl rfl rfl
  fhget := KeepsVerf.fhget
  refresh := fun _ _ ↦ evolves_refresh KeepsVerf.composes fun _ _ hi ha ↦
    .setInode hi Inode.settled_setAttrs (Inode.sameObject_setAttrs ha) rfl
  clntp := fun _ hf ↦ .get_bind fun d ↦ hf d.sb.clntp trivial
  aclClntp := fun _ hf ↦ .get_bind fun d ↦ hf d.sb.aclClntp fun _ _ ↦ trivial
  call := fun c _ _ hreq ↦ KeepsVerf.call c hreq
  freeres := fun c _ ↦ KeepsVerf.freeres c

theorem KeepsVerf.iput (p : Addr) : Evolves KeepsVerf (hsfsIput p) :=
  ObjectFrame.keepsVerf.iputOf (fun _ ↦ update p (fun _ h ↦ ⟨h.notNew, h.realIno, h.iRdev⟩)
    (fun _ ↦ ⟨rfl, rfl, rfl, rfl⟩) fun _ ↦ rfl) (.modify fun d ↦ free d p)

/-- **The handlers that list no directory leave verifiers alone.** -/
theorem UnlistedFrame.keepsVerf : UnlistedFrame (Evolves KeepsVerf) where
  toOpFrame := ObjectFrame.keepsVerf.op
  reply := fun _ _ ↦ .modify fun _ ↦ .of_heap rfl rfl rfl rfl
  answer := fun _ ↦ .modify fun _ ↦ .of_heap rfl rfl rfl rfl
  touch := fun _ ↦ .modify fun _ ↦ .of_heap rfl rfl rfl rfl
  priv := fun p _ ↦ KeepsVerf.update p (fun _ h ↦ ⟨h.notNew, h.realIno, h.iRdev⟩)
    (fun _ ↦ ⟨rfl, rfl, rfl, rfl⟩) fun _ ↦ rfl
  owner := fun p _ _ ↦ KeepsVerf.update p (fun _ h ↦ ⟨h.notNew, h.realIno, h.iRdev⟩)
    (fun _ ↦ ⟨rfl, rfl, rfl, rfl⟩) fun _ ↦ rfl
  iput := KeepsVerf.iput

/-! ## Listings -/

/-- The verifier that is stored in the inode `i` at `p`: that of the last reply, unless its
attributes are refused. -/
def accepted (p : Addr) (i : Inode) (es : List Event) : Option (Addr × UInt64) :=
  (pages es).getLast?.bind fun page ↦ if page.1.all i.takes then some (p, page.2) else none

/-- Store a verifier. -/
def put : Option (Addr × UInt64) → (Addr → UInt64) → Addr → UInt64
  | none, f => f
  | some (p, v), f => Function.update f p v

/-- The cookie has been sent with the verifier in the inode. -/
def Inode.Sends (i : Inode) (cookie : UInt64) (es : List Event) : Prop :=
  sent es ≠ [] ∧ ∀ args ∈ sent es, args = (cookie, i.cookieverf)

/-- A directory has been listed. -/
structure Daemon.Lists (d : Daemon) (p : Addr) (i : Inode) (cookie : UInt64) (es : List Event)
    (d' : Daemon) : Prop where
  sends : i.Sends cookie es
  settled : d'.Settled
  verf : ∀ f, d.VerfAt f → d'.VerfAt (fresh es (put (accepted p i es) f))

section lists

variable {d d' d'' : Daemon} {p : Addr} {i : Inode} {cookie : UInt64} {es es' : List Event}

/-- Nothing is listed after that. -/
theorem Inode.Sends.append (h : i.Sends cookie es) (hes' : sent es' = []) :
    i.Sends cookie (es ++ es') := by
  rw [Sends, sent_append, hes', List.append_nil]
  exact h

theorem Daemon.Lists.append (h : d.Lists p i cookie es d') (h' : KeepsVerf d' es' d'') :
    d.Lists p i cookie (es ++ es') d'' := by
  have hk := h' h.settled
  refine ⟨h.sends.append hk.silent, hk.settled, fun f hf ↦ ?_⟩
  have hpages : pages (es ++ es') = pages es := by
    rw [pages, picked_append, ← pages, ← pages, pages_of_sent hk.silent, List.append_nil]
  rw [fresh_append, accepted, hpages]
  exact hk.verf _ (h.verf f hf)

/-- **A call that lists the directory.** -/
theorem ends_listCall {req : Rpc} (hargs : req.listArgs = some (cookie, i.cookieverf))
    (clnt : Client)
    (hown : d.Owns clnt) :
    Ends (fun es r d' ↦ Called d req es r d' ∧ i.Sends cookie es ∧ created es = [])
      (fun _ _ _ ↦ False) (hsiNfs3ClntCall clnt req) d := by
  have hasks : Evolves (OnlyAsks (· = req)) (hsiNfs3ClntCall clnt req) :=
    OnlyAsks.call (Q := (· = req)) rfl clnt
  have hall := (Ends.of_evolves hasks d).and (.of_evolves (created_call clnt req) d)
  refine ((ends_call hown req).and ((ends_call_asked clnt req d).and hall)).mono ?_ fun _ _ _ h ↦
    h.1
  rintro es r d' ⟨hcalled, hne, honly, hnew⟩
  obtain ⟨req', rest, hes⟩ := List.exists_cons_of_ne_nil hne
  refine ⟨hcalled, ⟨?_, fun args hmem ↦ ?_⟩, hnew⟩
  · obtain rfl : req' = req := honly req' (hes ▸ List.mem_cons_self)
    rw [sent, hes, List.filterMap_cons_some hargs]
    exact List.cons_ne_nil _ _
  · obtain ⟨req'', hreq, hsome⟩ := List.mem_filterMap.1 hmem
    obtain rfl : req'' = req := honly req'' hreq
    exact Option.some.inj (hsome.symm.trans hargs)

/-- Nothing is stored. -/
theorem Daemon.Lists.of_heap (hsends : i.Sends cookie es) (hnew : created es = [])
    (hnone : accepted p i es = none) (hl : d'.layout = d.layout) (hh : d'.heap = d.heap)
    (hd : d.Settled) : d.Lists p i cookie es d' := by
  refine ⟨hsends, (KeepsIdentity.of_heap hnew hl hh hd).settled, fun f hf q j hj ↦ ?_⟩
  rw [fresh_of_nil hnew, hnone]
  exact hf q j (hh ▸ hj)

/-- The attributes are taken, and the verifier is stored. -/
theorem Daemon.Lists.of_store (hsends : i.Sends cookie es) (hnew : created es = []) {verf : UInt64}
    (hsome : accepted p i es = some (p, verf)) (hi : d.heap p = some i) {j : Inode}
    (hset : i.Settled → j.Settled) (hj : i.SameObject j) (hverf : j.cookieverf = verf)
    (hd : d.Settled) : d.Lists p i cookie es (d.setInode p j) := by
  refine ⟨hsends, (KeepsIdentity.setInode hi hset hj hd).settled, fun f hf q k hk ↦ ?_⟩
  rw [fresh_of_nil hnew, hsome, put]
  by_cases hq : q = p
  · subst hq
    rw [d.setInode_heap_self] at hk
    rw [Function.update_self]
    exact Option.some.inj hk ▸ hverf
  · rw [d.setInode_heap_of_ne hq] at hk
    rw [Function.update_of_ne hq]
    exact hf q k hk

/-- What comes after the call: the attributes are offered, and the verifier is stored unless they
are refused. -/
theorem ends_store {α : Type} {c : Client} {a : Int → α} {tail : Hs α} {post : Option Fattr3}
    {verf : UInt64} (hd : d.Settled) (hi : d.heap p = some i) (hsends : i.Sends cookie es)
    (hnew : created es = []) (hpages : pages es = [(post, verf)]) (htail : Evolves KeepsVerf tail) :
    Ends (fun es' _ d' ↦ d.Lists p i cookie (es ++ es') d')
      (fun es' _ _ ↦ i.Sends cookie (es ++ es'))
      (do
        let err ← nfsRefreshInode p (hsiNfs3Post2fattr post NfsFattr.fresh)
        if err ≠ 0 then
          clntFreeres c
          pure (a err)
        else
          setCookieVerf p verf
          tail) d := by
  have haccepted : accepted p i es = if post.all i.takes then some (p, verf) else none := by
    rw [accepted, hpages]
    rfl
  have hset (h : i.Settled) := h.offered post
  have hsame := i.sameObject_offered post
  refine .ret_bind (nfsRefreshInode_post_run hi post) ?_
  by_cases htakes : post.all i.takes = true
  · rw [if_pos htakes] at haccepted ⊢
    have hrun : (setCookieVerf p verf).run (d.setInode p (i.offered post)) =
        .ret (.ok (), d.setInode p { i.offered post with cookieverf := verf }) := by
      rw [setCookieVerf, update_run (d.setInode_heap_self p _), setInode_setInode]
    have hlists : d.Lists p i cookie es (d.setInode p { i.offered post with cookieverf := verf }) :=
      .of_store hsends hnew haccepted hi
        (fun h ↦ ⟨(hset h).notNew, (hset h).realIno, (hset h).iRdev⟩)
        ⟨hsame.ino, hsame.fileid, hsame.fh, hsame.type⟩ rfl hd
    refine .ret_bind hrun ((Ends.of_evolves htail _).mono ?_ ?_)
    · exact fun es' _ d' h ↦ hlists.append h
    · exact fun es' _ d' h ↦ (hlists.append h).sends
  · rw [if_neg htakes] at haccepted ⊢
    rw [Inode.offered_of_not htakes, setInode_eq_self hi]
    refine .of_ret rfl ?_
    rw [List.append_nil]
    exact .of_heap hsends hnew haccepted rfl rfl hd

/-- The call before that has left the inodes alone. -/
theorem Daemon.Lists.congr {d₁ : Daemon} (h : d₁.Lists p i cookie es d') (hh : d₁.heap = d.heap) :
    d.Lists p i cookie es d' :=
  ⟨h.sends, h.settled, fun f hf ↦ h.verf f fun q j hj ↦ hf q j (hh ▸ hj)⟩

/-- Both operations after their call: if it has failed, nothing is stored. -/
theorem ends_listed {α : Type} {req : Rpc} {f : Except Int req.Res → Hs α}
    (hargs : req.listArgs = some (cookie, i.cookieverf)) (hd : d.Settled)
    (herror : ∀ (r : Except Int req.Res) d₁, (∀ res, r = .ok res → pageBy req res = none) →
      ∃ a d₂, (f r).run d₁ = .ret (.ok a, d₂) ∧ d₂.layout = d₁.layout ∧ d₂.heap = d₁.heap)
    (hok : ∀ es res page d₁, pageBy req res = some page → d₁.Settled → d₁.heap = d.heap →
      i.Sends cookie es → created es = [] → pages es = [page] →
      Ends (fun es' _ d' ↦ d₁.Lists p i cookie (es ++ es') d')
        (fun es' _ _ ↦ i.Sends cookie (es ++ es')) (f (.ok res)) d₁) {clnt : Client}
    (hown : d.Owns clnt) :
    Ends (fun es _ d' ↦ d.Lists p i cookie es d') (fun es _ _ ↦ i.Sends cookie es)
      (hsiNfs3ClntCall clnt req >>= f) d := by
  refine (ends_listCall hargs clnt hown).bind ?_ fun _ _ _ h ↦ h.elim
  rintro es r d₁ ⟨⟨hcall, honly⟩, hsends, hnew⟩
  have hd₁ : d₁.Settled := (KeepsIdentity.of_heap hnew honly.layout honly.heap hd).settled
  have hfail (h : ∀ res, r = .ok res → pageBy req res = none) (hpages : pages es = []) :
      Ends (fun es' _ d' ↦ d.Lists p i cookie (es ++ es') d')
        (fun es' _ _ ↦ i.Sends cookie (es ++ es')) (f r) d₁ := by
    obtain ⟨a, d₂, hrun, hl, hh⟩ := herror r d₁ h
    refine .of_ret hrun ?_
    rw [List.append_nil]
    refine .of_heap hsends hnew ?_ (hl.trans honly.layout) (hh.trans honly.heap) hd
    rw [accepted, hpages]
    rfl
  cases r with
  | error err => exact hfail (fun _ h ↦ nomatch h) (hcall.picked_error pageBy)
  | ok res =>
      have hpages : pages es = (pageBy req res).toList := hcall.picked_ok pageBy
      cases hpage : pageBy req res with
      | none =>
          rw [hpage] at hpages
          exact hfail (fun res' h ↦ Except.ok.inj h ▸ hpage) hpages
      | some page =>
          rw [hpage] at hpages
          refine (hok es res page d₁ hpage hd₁ honly.heap hsends hnew hpages).mono ?_ fun _ _ _ h ↦
            h
          exact fun es' _ d' h ↦ h.congr honly.heap

/-- **`hsi_nfs3_readdir`.** -/
theorem ends_readdir_lists (hd : d.Settled) (hi : d.heap p = some i) (count : UInt32)
    (cookie : UInt64) :
    Ends (fun es _ d' ↦ d.Lists p i cookie es d') (fun es _ _ ↦ i.Sends cookie es)
      (hsiNfs3Readdir p count cookie) d := by
  have hr := ObjectFrame.keepsVerf
  refine .ret_bind (x := sbClntp) rfl (.ret_bind (getCookieVerf_run hi) (.ret_bind (getfh3_run hi)
    (ends_listed rfl hd ?_ ?_ (.inl rfl))))
  · rintro (err | resok | status) d₁ hnone
    · exact ⟨_, d₁, rfl, rfl, rfl⟩
    · exact nomatch hnone _ rfl
    · exact ⟨_, _, rfl, rfl, rfl⟩
  · rintro es (resok | status) _ d₁ ⟨⟩ hd₁ hheap hsends hnew hpages
    exact ends_store hd₁ (hheap ▸ hi) hsends hnew hpages
      (hr.bind (hr.readdirEntries _ _) fun _ ↦ hr.freeThen trivial (hr.pure _))

/-- **`hsi_nfs3_readdir_plus`.** -/
theorem ends_readdirPlus_lists (hd : d.Settled) (hi : d.heap p = some i) (count : UInt32)
    (cookie : UInt64) (maxcount : UInt32) :
    Ends (fun es _ d' ↦ d.Lists p i cookie es d') (fun es _ _ ↦ i.Sends cookie es)
      (hsiNfs3ReaddirPlus p count cookie maxcount) d := by
  have hr := ObjectFrame.keepsVerf
  refine .ret_bind (x := sbClntp) rfl (.ret_bind (getCookieVerf_run hi) (.ret_bind (getfh3_run hi)
    (ends_listed rfl hd ?_ ?_ (.inl rfl))))
  · rintro (err | resok | status) d₁ hnone
    · exact ⟨_, d₁, rfl, rfl, rfl⟩
    · exact nomatch hnone _ rfl
    · exact ⟨_, _, rfl, rfl, rfl⟩
  · rintro es (resok | status) _ d₁ ⟨⟩ hd₁ hheap hsends hnew hpages
    refine ends_store hd₁ (hheap ▸ hi) hsends hnew hpages
      (hr.bind (hr.readdirPlusEntries hr.fhget _ _) fun
        | .ok _ => hr.freeThen trivial (hr.pure _)
        | .error _ => hr.bind (hr.freeCtx KeepsVerf.iput _) fun _ ↦ hr.freeThen trivial (hr.pure _))

end lists

/-! ## The handlers -/

/-- The number of the directory that a request reads, and the cookie from which it goes on. -/
def Request.reads : Request → Option (UInt64 × UInt64)
  | .readdir ino _ off | .readdirplus ino _ off => some (ino, off)
  | _ => none

/-- The verifier that is stored in the course of a request, and the inode it is stored in. -/
def Request.stores (req : Request) (d : Daemon) (es : List Event) : Option (Addr × UInt64) :=
  req.reads.bind fun r ↦ (d.ilookup r.1).bind fun p ↦ (d.heap p).bind fun i ↦ accepted p i es

/-- Calls that list a directory are made exactly by requests that read it, and they carry the cookie
of the request and the verifier in the inode. -/
structure Request.Sends (req : Request) (d : Daemon) (es : List Event) : Prop where
  only : ∀ args ∈ sent es, ∃ ino p i, req.reads = some (ino, args.1) ∧ d.ilookup ino = some p ∧
    d.heap p = some i ∧ args.2 = i.cookieverf
  always : ∀ ino off p i, req.reads = some (ino, off) → d.ilookup ino = some p → d.heap p = some i →
    sent es ≠ []

/-- What a request does to the verifiers. -/
structure Request.Carries (req : Request) (d : Daemon) (es : List Event) (d' : Daemon) : Prop where
  sends : req.Sends d es
  settled : d'.Settled
  verf : ∀ f, d.VerfAt f → d'.VerfAt (fresh es (put (req.stores d es) f))

section handlers

variable {d d' : Daemon} {p : Addr} {i : Inode} {ino off : UInt64} {es : List Event} {req : Request}

/-- The directory has been found. -/
theorem Request.sends_of_found (hreq : req.reads = some (ino, off)) (hl : d.ilookup ino = some p)
    (hi : d.heap p = some i) (h : i.Sends off es) : req.Sends d es := by
  refine ⟨fun args hmem ↦ ?_, fun _ _ _ _ _ _ _ ↦ h.1⟩
  rw [h.2 args hmem]
  exact ⟨ino, p, i, hreq, hl, hi, rfl⟩

theorem Request.carries_of_found (hreq : req.reads = some (ino, off)) (hl : d.ilookup ino = some p)
    (hi : d.heap p = some i) (h : d.Lists p i off es d') : req.Carries d es d' := by
  refine ⟨sends_of_found hreq hl hi h.sends, h.settled, ?_⟩
  have hstores : req.stores d es = accepted p i es := by
    rw [Request.stores, hreq, Option.bind_some, hl, Option.bind_some, hi, Option.bind_some]
  rw [hstores]
  exact h.verf

/-- There is no directory to be read, and no call. -/
theorem Request.sends_of_nil (hnone : ∀ ino off p, req.reads = some (ino, off) →
    d.ilookup ino = some p → d.heap p = none) (h : sent es = []) : req.Sends d es := by
  refine ⟨fun args hmem ↦ absurd (h ▸ hmem) List.not_mem_nil, fun ino off p i hr hl hi ↦ ?_⟩
  exact nomatch (hnone ino off p hr hl).symm.trans hi

/-- **A handler that reads a directory.** -/
theorem ends_reading {α : Type} {op : Addr → Hs α} {g : α → Hs Unit}
    (hreq : req.reads = some (ino, off))
    (hop : ∀ p i, d.heap p = some i → Ends (fun es _ d' ↦ d.Lists p i off es d')
      (fun es _ _ ↦ i.Sends off es) (op p) d) (hg : ∀ a, Evolves KeepsVerf (g a)) :
    Ends (fun es _ d' ↦ req.Carries d es d') (fun es _ _ ↦ req.Sends d es)
      (do
        match ← hsfsIlookup ino with
        | none => assertThat .cached false
        | some parent => op parent >>= g) d := by
  have hino {ino' off' : UInt64} (h : req.reads = some (ino', off')) : ino' = ino :=
    (Prod.mk.inj (Option.some.inj (h.symm.trans hreq))).1
  rcases d.hsfsIlookup_cases ino with ⟨hl, hrun⟩ | ⟨p, i, hl, hi, hrun⟩ | ⟨p, hl, hfree, hrun⟩
  · refine .ret_bind hrun (.of_fault rfl (Request.sends_of_nil (fun ino' off' p hr hl' ↦ ?_) rfl))
    obtain rfl := hino hr
    exact nomatch hl.symm.trans hl'
  · refine .ret_bind hrun ((hop p i hi).bind ?_ fun es _ _ h ↦ Request.sends_of_found hreq hl hi h)
    intro es a d₁ hlists
    refine (Ends.of_evolves (hg a) d₁).mono ?_ ?_
    · exact fun es' _ d' h ↦ Request.carries_of_found hreq hl hi (hlists.append h)
    · exact fun es' _ d' h ↦ Request.sends_of_found hreq hl hi (hlists.append h).sends
  · refine .of_fault (by rw [run_bind, hrun]; rfl)
      (Request.sends_of_nil (fun ino' off' q hr hl' ↦ ?_) rfl)
    obtain rfl := hino hr
    exact Option.some.inj (hl.symm.trans hl') ▸ hfree

/-- **All handlers.** -/
theorem Request.ends_carries (req : Request) (rounds : Nat) (hd : d.Settled) :
    Ends (fun es _ d' ↦ req.Carries d es d') (fun es _ _ ↦ req.Sends d es)
      (req.handle rounds) d := by
  have hr := UnlistedFrame.keepsVerf
  cases hlists : req.lists with
  | false =>
      have hreads : req.reads = none := by
        cases req with
        | readdir | readdirplus => exact nomatch hlists
        | _ => rfl
      have hsends {es : List Event} (h : sent es = []) : req.Sends d es :=
        sends_of_nil (fun _ _ _ h ↦ nomatch hreads.symm.trans h) h
      have hstores (es : List Event) : req.stores d es = none := by
        rw [stores, hreads]
        rfl
      refine (Ends.of_evolves (hr.handle rounds hlists) d).mono ?_ ?_
      · exact fun es _ d' h ↦ ⟨hsends (h hd).silent, (h hd).settled, hstores es ▸ (h hd).verf⟩
      · exact fun es _ d' h ↦ hsends (h hd).silent
  | true =>
      cases req with
      | readdir ino size off =>
          refine ends_reading rfl (fun p i hi ↦ ends_readdir_lists hd hi _ off) fun r ↦ ?_
          exact hr.ite (hr.err _) <| hr.bind hr.malloc fun _ ↦ hr.ite (hr.answer _) (hr.err _)
      | readdirplus ino size off =>
          refine ends_reading rfl (fun p i hi ↦ ends_readdirPlus_lists hd hi _ off _) fun r ↦ ?_
          exact hr.ite (hr.err _) <| hr.bind hr.malloc fun _ ↦
            hr.ite (hr.bind (hr.addDirentsPlus _ _ _) fun _ ↦ hr.answer _) (hr.err _)
      | _ => exact nomatch hlists

end handlers

/-! ## Whole sessions -/

/-- The verifier of the last reply that has been accepted for the inode at an address, since it was
made. -/
def stored : List Step → Addr → UInt64
  | [] => fun _ ↦ 0
  | s :: steps => fresh s.events (put (s.req.stores s.before s.events) (stored steps))

theorem Daemon.Mounted.verfAt {d : Daemon} (h : d.Mounted) : d.VerfAt fun _ ↦ 0 := by
  obtain ⟨l, o, fh, es, hx⟩ := h
  have hkept := ObjectFrame.keepsVerf.mount (fun _ ↦ .modify fun _ ↦ .of_heap rfl rfl rfl rfl) hx
    (settled_start l o)
  have hzero : fresh es (fun _ ↦ 0) = fun _ ↦ 0 := by
    funext q
    exact ite_self 0
  exact hzero ▸ hkept.verf (fun _ ↦ 0) fun _ _ h ↦ (nomatch h)

/-- **Every inode holds the verifier of the last reply that has been accepted for it.** -/
theorem Session.verfAt {ok : List Step → Step → Prop} {steps : List Step} {d : Daemon}
    (h : Session ok steps d) : d.VerfAt (stored steps) := by
  induction h with
  | mounted hd => exact hd.verfAt
  | @step steps s hprev hs hok ih =>
      obtain ⟨rounds, hx⟩ := hs
      exact ((s.req.ends_carries rounds hprev.settled).exec_ok hx).verf _ ih

/-! ## Streams -/

/-- The cookies of the entries in an answer. -/
def Reply.cookies : Reply → List UInt64
  | .dirents entries => entries.map Dirent.off
  | .direntsPlus entries => entries.map DirentPlus.off
  | _ => []

/-- The answers to a request. -/
def Step.answers (s : Step) : List Reply := s.after.replies.drop s.before.replies.length

/-- An entry with the cookie has been given in reply to a request that reads the directory. -/
def Step.gives (s : Step) (ino cookie : UInt64) : Bool :=
  s.req.reads.any (fun r ↦ r.1 == ino) && s.answers.any fun r ↦ r.cookies.contains cookie

section streams

variable {κ : Type} [DecidableEq κ]

/-- The verifier that came with the entry with the cookie, when the stream was last given one. -/
def owed (hist : List (κ × Step)) (stream : κ) (ino cookie : UInt64) : Option UInt64 :=
  hist.findSome? fun ks ↦
    if ks.1 = stream ∧ ks.2.gives ino cookie = true then (pages ks.2.events).getLast?.map Prod.snd
    else none

/-- The verifier that has to go with a cookie. -/
def required (hist : List (κ × Step)) (stream : κ) (ino cookie : UInt64) : Option UInt64 :=
  if cookie = 0 then some 0 else owed hist stream ino cookie

/-- Every call that lists a directory carries the verifier that belongs to its cookie. -/
def Paired (hist : List (κ × Step)) (stream : κ) (req : Request) (es : List Event) : Prop :=
  ∀ args ∈ sent es, ∃ r ∈ req.reads, ∀ verf ∈ required hist stream r.1 args.1, args.2 = verf

/-- The last reply that has been accepted for the directory, whichever stream it was for, came with
the verifier that is needed now. -/
def Current (hist : List (κ × Step)) (stream : κ) (req : Request) (d : Daemon) : Prop :=
  ∀ r ∈ req.reads, ∀ p ∈ d.ilookup r.1, (d.heap p).isSome = true →
    ∀ verf ∈ required hist stream r.1 r.2, stored (hist.map Prod.snd) p = verf

/-- **In every session, with any number of streams, a request carries the verifier that belongs to
its cookie exactly if the last reply for the directory came with it.** -/
theorem Session.paired_iff {hist : List (κ × Step)} {d : Daemon}
    (h : Session (fun _ _ ↦ True) (hist.map Prod.snd) d) (stream : κ) (req : Request) (rounds : Nat)
    {out : Except Fault Unit} {d' : Daemon} {es : List Event}
    (hx : Prog.Exec Server.record ((req.handle rounds).run d) [] (out, d') es) :
    Paired hist stream req es ↔ Current hist stream req d := by
  have hsends : req.Sends d es := by
    have hends := req.ends_carries rounds h.settled
    cases out with
    | ok _ => exact (hends.exec_ok hx).sends
    | error _ => exact hends.exec_error hx
  constructor
  · rintro hpaired ⟨ino, off⟩ hreads p hp hlive verf hverf
    obtain ⟨i, hi⟩ := Option.isSome_iff_exists.1 hlive
    obtain ⟨args, _, hargs⟩ := List.exists_cons_of_ne_nil (hsends.always ino off p i hreads hp hi)
    have hmem : args ∈ sent es := hargs ▸ List.mem_cons_self
    obtain ⟨ino', q, j, hreads', hq, hj, hsent⟩ := hsends.only args hmem
    obtain ⟨rfl, hoff⟩ := Prod.mk.inj (Option.some.inj (hreads'.symm.trans hreads))
    obtain rfl := Option.some.inj (hq.symm.trans hp)
    obtain ⟨r, hr, hall⟩ := hpaired args hmem
    obtain rfl := Option.some.inj (hreads.symm.trans hr)
    rw [← h.verfAt q j hj, ← hsent]
    exact hall verf (hoff ▸ hverf)
  · intro hcurrent args hmem
    obtain ⟨ino, p, i, hreads, hp, hi, hsent⟩ := hsends.only args hmem
    refine ⟨_, hreads, fun verf hverf ↦ ?_⟩
    rw [hsent, h.verfAt p i hi]
    exact hcurrent _ hreads p hp (hi ▸ rfl) verf hverf

end streams

/-- A server that lists one file, with a verifier. -/
def listAnswer : (c : Call) → Option c.Res
  | .clntCall _ (.readdir _ cookie _ _) =>
      some (.done (.ok ⟨none, 7, if cookie = 0 then [⟨2, [102], 5⟩] else []⟩))
  | c => sampleAnswer c

/-- The root is read from its beginning, and then once more, from some cookie. -/
def sampleListing (cookie : UInt64) : Option ((List Step × Daemon) × List Event × Daemon) :=
  sampleMount.bind fun d ↦
    (playSession (fun _ _ ↦ true) listAnswer 0 [.init, .readdir 1 4096 0] [] d).bind fun r ↦
      (Request.play listAnswer 0 (.readdir 1 4096 cookie) r.2).map fun q ↦ (r, q)

theorem of_sampleListing {cookie : UInt64} {steps : List Step} {d d' : Daemon} {es : List Event}
    (h : sampleListing cookie = some ((steps, d), es, d')) :
    Session (fun _ _ ↦ True) ((steps.map (Prod.mk false)).map Prod.snd) d ∧ ∃ rounds,
      Prog.Exec Server.record ((Request.handle rounds (.readdir 1 4096 cookie)).run d) []
        (.ok (), d') es := by
  obtain ⟨d₀, hd₀, hplay⟩ := Option.bind_eq_some_iff.1 h
  obtain ⟨⟨steps', d₁⟩, hplay, hlast⟩ := Option.bind_eq_some_iff.1 hplay
  obtain ⟨⟨es', d₂⟩, hlast, heq⟩ := Option.map_eq_some_iff.1 hlast
  cases heq
  have hsame : (steps.map (Prod.mk false)).map Prod.snd = steps := by
    rw [List.map_map]
    exact List.map_id steps
  rw [hsame]
  exact ⟨(Session.of_play (.mounted (mounted_of_play hd₀)) hplay).mono fun _ _ _ ↦ trivial,
    Request.handled_of_play hlast⟩

/-- A stream goes on reading after the one entry that it was given. -/
theorem Session.paired_iff_next :
    ∃ (hist : List (Bool × Step)) (d : Daemon) (es : List Event) (d' : Daemon) (rounds : Nat),
      Session (fun _ _ ↦ True) (hist.map Prod.snd) d ∧
      Prog.Exec Server.record ((Request.handle rounds (.readdir 1 4096 5)).run d) []
        (.ok (), d') es ∧
      required hist false 1 5 = some 7 ∧ Paired hist false (.readdir 1 4096 5) es := by
  have hplay : (sampleListing 5).any (fun q ↦
      decide (required (q.1.1.map (Prod.mk false)) false 1 5 = some 7) &&
        (q.1.2.ilookup 1).all fun p ↦
          stored ((q.1.1.map (Prod.mk false)).map Prod.snd) p == 7) = true := by decide +kernel
  obtain ⟨⟨⟨steps, d⟩, es, d'⟩, hplay, htest⟩ := (Option.any_eq_true _ _).1 hplay
  obtain ⟨hreq, hstored⟩ := Bool.and_eq_true_iff.1 htest
  obtain ⟨hs, rounds, hx⟩ := of_sampleListing hplay
  have hreq := of_decide_eq_true hreq
  refine ⟨steps.map (Prod.mk false), d, es, d', rounds, hs, hx, hreq, ?_⟩
  refine (Session.paired_iff hs false (.readdir 1 4096 5) rounds hx).2 ?_
  rintro _ ⟨⟩ p hp - verf hverf
  obtain rfl := Option.some.inj (hreq.symm.trans hverf)
  exact beq_iff_eq.1 ((Option.all_eq_true _ _).1 hstored p hp)

/-- A second stream begins to read, with the verifier that has been sent to the first one. -/
theorem Session.not_paired : ¬ ∀ (hist : List (Bool × Step)) (d : Daemon),
    Session (fun _ _ ↦ True) (hist.map Prod.snd) d →
      ∀ (stream : Bool) (req : Request) (rounds : Nat) (out : Except Fault Unit) (d' : Daemon)
        (es : List Event), Prog.Exec Server.record ((req.handle rounds).run d) [] (out, d') es →
          Paired hist stream req es := by
  have hplay : (sampleListing 0).any (fun q ↦ decide (sent q.2.1 = [(0, 7)])) = true := by
    decide +kernel
  obtain ⟨⟨⟨steps, d⟩, es, d'⟩, hplay, hsent⟩ := (Option.any_eq_true _ _).1 hplay
  obtain ⟨hs, rounds, hx⟩ := of_sampleListing hplay
  intro hall
  have hmem : (0, 7) ∈ sent es := of_decide_eq_true hsent ▸ List.mem_cons_self
  obtain ⟨r, -, hverf⟩ := hall _ d hs true _ rounds _ d' es hx (0, 7) hmem
  exact absurd (hverf 0 rfl) (by decide)

end Hsfs
