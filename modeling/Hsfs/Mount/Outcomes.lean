import Hsfs.Daemon.Held
import Hsfs.Fuse.Identity
import Hsfs.Mount.Run

/-!
# How a mount comes out

`outcomes` reads off from the calls of a mount how its steps came out: what the mount daemon has
answered, which clients could be made, also by the reconnects within `hsi_fill_super`, and whether
the file system was mounted.  `Ended` says for each way to leave `hsx_fuse_mount` how the steps came
out and which clients are held then.
-/

namespace Hsfs.Mount

open Interact Interact.Act

/-! ## Outcomes -/

/-- How a step of a mount has come out. -/
inductive Outcome where
  /-- The mount daemon has answered, and has granted the mount or not. -/
  | answered (granted : Bool)
  /-- There was memory for that answer. -/
  | kept (granted : Bool)
  /-- A client was to be made, and has been made or not. -/
  | created (acl made : Bool)
  /-- There was no client to call `MOUNTPROC_UMNT` with. -/
  | umntUnopened
  /-- `MOUNTPROC_UMNT` has been called. -/
  | umnt
  /-- `fuse_mount` has returned a channel. -/
  | channel
  deriving DecidableEq

/-- The mount daemon has granted the mount. -/
def granted : Mountres3 → Bool
  | .ok _ => true
  | .fail _ => false

/-- How the steps have come out, from the calls and their answers. -/
def outcomes : List MountEvent → List Outcome
  | ⟨.inl (.openclnt acl), true⟩ :: ⟨.inl (.ping _), made⟩ :: es => .created acl made :: outcomes es
  | ⟨.inl (.openclnt acl), false⟩ :: es => .created acl false :: outcomes es
  | ⟨.inr (.mnt _ _), .ok res⟩ :: es => .answered (granted res) :: outcomes es
  | ⟨.inr (.mallocFhandle (.ok res)), true⟩ :: es => .kept (granted res) :: outcomes es
  | ⟨.inr (.openclnt _ .umnt), false⟩ :: es => .umntUnopened :: outcomes es
  | ⟨.inr (.umnt _ _), _⟩ :: es => .umnt :: outcomes es
  | ⟨.inr .fuseMount, some _⟩ :: es => .channel :: outcomes es
  | _ :: es => outcomes es
  | [] => []

/-- The calls of a piece of code come out in some way, whatever is called after it. -/
def Decodes (es : List MountEvent) (os : List Outcome) : Prop :=
  ∀ es', outcomes (es ++ es') = os ++ outcomes es'

namespace Decodes

variable {es es' : List MountEvent} {os os' : List Outcome}

theorem nil : Decodes [] [] := fun _ ↦ rfl

theorem append (h : Decodes es os) (h' : Decodes es' os') : Decodes (es ++ es') (os ++ os') := by
  intro es''
  rw [List.append_assoc, h, h', List.append_assoc]

theorem outcomes_eq (h : Decodes es os) : outcomes es = os := by
  have heq := h []
  rwa [List.append_nil, show outcomes [] = [] from rfl, List.append_nil] at heq

end Decodes

/-- The mount daemon grants the mount. -/
def grants : MountEvent → Bool
  | ⟨.inr (.mnt _ _), .ok (.ok _)⟩ => true
  | _ => false

/-- `MOUNTPROC_UMNT` is called. -/
def sendsUmnt : MountEvent → Bool
  | ⟨.inr (.umnt _ _), _⟩ => true
  | _ => false

/-- An outcome other than the one that is looked for. -/
theorem mem_cons_iff_of_ne {o o' : Outcome} {os : List Outcome} {b : Bool} (hne : o ≠ o')
    (h : o ∈ os ↔ b = true) : o ∈ o' :: os ↔ b = true := by
  rw [List.mem_cons, or_iff_right hne, h]

theorem answered_mem_outcomes (es : List MountEvent) :
    .answered true ∈ outcomes es ↔ es.any grants = true := by
  fun_induction outcomes es with
  | case1 _ _ _ _ ih => exact mem_cons_iff_of_ne nofun ih
  | case2 _ _ ih => exact mem_cons_iff_of_ne nofun ih
  | case3 _ _ res es ih =>
      cases res with
      | ok fh => exact iff_of_true (List.mem_cons_self ..) rfl
      | fail st => exact mem_cons_iff_of_ne nofun ih
  | case4 _ _ ih => exact mem_cons_iff_of_ne nofun ih
  | case5 _ _ ih => exact mem_cons_iff_of_ne nofun ih
  | case6 _ _ _ _ ih => exact mem_cons_iff_of_ne nofun ih
  | case7 _ _ ih => exact mem_cons_iff_of_ne nofun ih
  | case8 e es _ _ hmnt _ _ _ _ ih =>
      have hgrants : grants e = false := by
        unfold grants
        split
        · exact absurd rfl (hmnt _ _ _)
        · rfl
      rw [ih, List.any_cons, hgrants, Bool.false_or]
  | case9 => exact iff_of_false List.not_mem_nil nofun

theorem umnt_mem_outcomes (es : List MountEvent) :
    .umnt ∈ outcomes es ↔ es.any sendsUmnt = true := by
  fun_induction outcomes es with
  | case1 _ _ _ _ ih => exact mem_cons_iff_of_ne nofun ih
  | case2 _ _ ih => exact mem_cons_iff_of_ne nofun ih
  | case3 _ _ _ _ ih => exact mem_cons_iff_of_ne nofun ih
  | case4 _ _ ih => exact mem_cons_iff_of_ne nofun ih
  | case5 _ _ ih => exact mem_cons_iff_of_ne nofun ih
  | case6 _ _ _ _ ih => exact iff_of_true (List.mem_cons_self ..) rfl
  | case7 _ _ ih => exact mem_cons_iff_of_ne nofun ih
  | case8 e es _ _ _ _ _ humnt _ ih =>
      have hsends : sendsUmnt e = false := by
        unfold sendsUmnt
        split
        · exact absurd rfl (humnt _ _ _)
        · rfl
      rw [ih, List.any_cons, hsends, Bool.false_or]
  | case9 => exact iff_of_false List.not_mem_nil nofun
/-! ## Making clients -/

/-- How the making of a client comes out. -/
theorem decodes_of_creates {acl : Bool} {d d' : Daemon} {es : List Event} {new : Option Client}
    (h : Creates acl d es new d') : Decodes (leftEvents es) [.created acl new.isSome] := by
  cases h with
  | unopened => exact fun _ ↦ rfl
  | silent => exact fun _ ↦ rfl
  | made => exact fun _ ↦ rfl

/-- The client for NFS has been made again and again.  If this went wrong, it is lost. -/
structure Remakes (ok : Bool) (d : Daemon) (es : List Event) (d' : Daemon) : Prop where
  decodes : ∃ mades : List Bool, Decodes (leftEvents es) (mades.map (.created false)) ∧
    mades.all id = ok
  clients : if ok then d'.Held else d'.Lost
  aclClntp : d'.sb.aclClntp = d.sb.aclClntp

namespace Remakes

variable {ok : Bool} {d d' d'' : Daemon} {es es' : List Event}

theorem held (h : Remakes true d es d') : d'.Held := h.clients

theorem refl (h : d.Held) : Remakes true d [] d := ⟨⟨[], .nil, rfl⟩, h, rfl⟩

theorem trans (h : Remakes true d es d') (h' : Remakes ok d' es' d'') :
    Remakes ok d (es ++ es') d'' := by
  obtain ⟨mades, hes, hall⟩ := h.decodes
  obtain ⟨mades', hes', hall'⟩ := h'.decodes
  refine ⟨⟨mades ++ mades', ?_, ?_⟩, h'.clients, h'.aclClntp.trans h.aclClntp⟩
  · rw [List.map_append, leftEvents, List.map_append]
    exact hes.append hes'
  · rw [List.all_append, hall, hall', Bool.true_and]

/-- Calls that make no client. -/
theorem of_nil (h : d.Held) (hes : Decodes (leftEvents es) [])
    (hopened : d'.clients.opened = d.clients.opened)
    (hclosed : d'.clients.closed = d.clients.closed) (hclntp : d'.sb.clntp = d.sb.clntp)
    (hacl : d'.sb.aclClntp = d.sb.aclClntp) : Remakes true d es d' :=
  ⟨⟨[], hes, rfl⟩, h.congr hopened hclosed hclntp hacl, hacl⟩

/-- Changing the superblock in between. -/
theorem set (h : Remakes true d es d') (sb : Super) (hclntp : sb.clntp = d'.sb.clntp)
    (hacl : sb.aclClntp = d'.sb.aclClntp) : Remakes true d es { d' with sb := sb } := by
  have hset : Remakes true d' [] { d' with sb := sb } := of_nil h.held .nil rfl rfl hclntp hacl
  have htrans := h.trans hset
  rwa [List.append_nil] at htrans

/-- Using a client in between. -/
theorem use (h : Remakes ok d es d') (clnt : Client) : Remakes ok d es (d'.useClient clnt) := by
  refine ⟨h.decodes, ?_, h.aclClntp⟩
  have hclients := h.clients
  cases ok with
  | true => exact Daemon.Held.congr hclients Clients.use_opened Clients.use_closed rfl rfl
  | false =>
      have hlost : d'.Lost := hclients
      exact ⟨hlost.holds.use _, Clients.use_opened.symm ▸ hlost.lt, hlost.ne⟩

end Remakes

section calls

variable {d : Daemon}

/-- **A reconnect makes the client for NFS again, or loses it.** -/
theorem ends_reconnect (h : d.Held) :
    Ends (fun es new d' ↦ (∀ c ∈ new, c = d'.sb.clntp) ∧ Remakes new.isSome d es d')
      (fun _ _ _ ↦ False) (hsiNfs3ClntReconnect d.sb.clntp) d := by
  have hcreate := ends_hsiNfs3ClntCreate (d := d.closeClient d.sb.clntp) false
  have hlost := h.close
  unfold hsiNfs3ClntReconnect
  refine .ret_bind rfl ?_
  rw [if_pos rfl]
  refine .ret_bind rfl ?_
  refine hcreate.bind ?_ fun _ _ _ h ↦ h.elim
  intro es new d' hnew
  have hdecodes := decodes_of_creates hnew
  cases hnew with
  | unopened =>
      refine .pure ⟨fun c hc ↦ (nomatch hc), ⟨⟨[false], ?_, rfl⟩, hlost, rfl⟩⟩
      rwa [List.append_nil]
  | silent =>
      refine .pure ⟨fun c hc ↦ (nomatch hc), ⟨⟨[false], ?_, rfl⟩, hlost.open_close, rfl⟩⟩
      rwa [List.append_nil]
  | made =>
      refine .ret_bind rfl (.pure ⟨fun c hc ↦ (Option.some.inj hc).symm,
        ⟨⟨[true], ?_, rfl⟩, hlost.replace, rfl⟩⟩)
      rwa [List.append_nil]

/-- What a call leaves behind: after a reply there is a client, and without one it may be lost. -/
def CalledHeld {α : Type} (d : Daemon) : List Event → Except Int α → Daemon → Prop
  | es, .ok _, d' => Remakes true d es d'
  | es, .error err, d' => err ≠ 0 ∧ ∃ ok, Remakes ok d es d'

theorem ends_call_held (h : d.Held) (req : Rpc) :
    Ends (CalledHeld d) (fun _ _ _ ↦ False) (hsiNfs3ClntCall d.sb.clntp req) d := by
  intro tr
  let P (clnt : Client) (d' : Daemon) (tr' : List Event) : Prop :=
    clnt = d'.sb.clntp ∧ ∃ es, tr' = tr ++ es ∧ Remakes true d es d'
  have huse {clnt : Client} {d' : Daemon} {tr' : List Event} {req : Rpc} {r : RpcReply req.Res}
      (hP : P clnt d' tr') : P clnt (d'.useClient clnt) (tr' ++ [⟨.clntCall clnt req, r⟩]) := by
    obtain ⟨rfl, es, rfl, hes⟩ := hP
    refine ⟨rfl, es ++ [_], List.append_assoc ..,
      (hes.trans (.of_nil hes.held (fun _ ↦ rfl) ?_ ?_ rfl rfl))⟩
    · exact Clients.use_opened
    · exact Clients.use_closed
  have hcall : wp Server.record (hsiNfs3ClntCall d.sb.clntp req)
      (CallPost (fun _ d' tr' ↦ ∃ es, tr' = tr ++ es ∧ Remakes true d es d')
        fun d' tr' ↦ ∃ es, tr' = tr ++ es ∧ ∃ ok, Remakes ok d es d')
      (fun _ _ _ ↦ False) d tr := by
    refine wp_call (P := P) ?_ ?_ ?_ ?_ ⟨rfl, [], (List.append_nil tr).symm, .refl h⟩
    · rintro clnt d' tr' res _ hP rfl
      exact (huse hP).2
    · rintro clnt d' tr' err _ hP rfl
      exact huse hP
    · rintro clnt d' tr' ⟨-, es, htr, hes⟩
      exact ⟨es, htr, true, hes⟩
    · rintro clnt d' tr' ⟨rfl, es, rfl, hes⟩
      refine wp_mono ?_ (fun _ _ _ ⟨_, _, h⟩ ↦ h) (ends_reconnect hes.held (tr ++ es))
      rintro (_ | new) d'' _ ⟨es', rfl, hnew, hes'⟩
      · exact ⟨es ++ es', List.append_assoc .., false, hes.trans hes'⟩
      · exact ⟨hnew new rfl, es ++ es', List.append_assoc .., hes.trans hes'⟩
  refine wp_mono ?_ (fun _ _ _ h ↦ h.elim) hcall
  rintro (err | res) d' tr' hres
  · obtain ⟨herr, es, htr, hok⟩ := hres
    exact ⟨es, htr, herr, hok⟩
  · exact hres

/-- An operation ends with a client, unless it returns an error. -/
def EndsHeld (d : Daemon) (es : List Event) (ret : Int) (d' : Daemon) : Prop :=
  ∃ ok, Remakes ok d es d' ∧ (ok = false → ret ≠ 0)

theorem EndsHeld.of_remakes {d' : Daemon} {es : List Event} (h : Remakes true d es d') (ret : Int) :
    EndsHeld d es ret d' := ⟨true, h, nofun⟩

theorem EndsHeld.trans {d' d'' : Daemon} {es es' : List Event} {ret : Int}
    (h : Remakes true d es d')
    (h' : EndsHeld d' es' ret d'') : EndsHeld d (es ++ es') ret d'' := by
  obtain ⟨ok, hes', hret⟩ := h'
  exact ⟨ok, h.trans hes', hret⟩

/-- First a call through the client of the superblock. -/
theorem ends_call_held_bind {β : Type} {req : Rpc} {f : Except Int req.Res → Hs β}
    {Q : List Event → β → Daemon → Prop} {E : List Event → Fault → Daemon → Prop} (h : d.Held)
    (herror : ∀ es err d' ok, err ≠ 0 → Remakes ok d es d' →
      Ends (fun es' ↦ Q (es ++ es')) (fun es' ↦ E (es ++ es')) (f (.error err)) d')
    (hok : ∀ es res d', Remakes true d es d' →
      Ends (fun es' ↦ Q (es ++ es')) (fun es' ↦ E (es ++ es')) (f (.ok res)) d') :
    Ends Q E (hsiNfs3ClntCall d.sb.clntp req >>= f) d := by
  refine (ends_call_held h req).bind ?_ fun _ _ _ h ↦ h.elim
  rintro es (err | res) d' hres
  · obtain ⟨herr, ok, hes⟩ := hres
    exact herror es err d' ok herr hes
  · exact hok es res d' hres

theorem ends_hsiNfs3DoGetattr (h : d.Held) (fh : NfsFh) (fattr : NfsFattr) (st : Option Stat) :
    Ends (fun es r d' ↦ EndsHeld d es r.1 d') (fun _ _ _ ↦ False)
      (hsiNfs3DoGetattr fh fattr st) d := by
  unfold hsiNfs3DoGetattr callSb
  refine Ends.bind (P := CalledHeld d) (.ret_bind rfl (ends_call_held h _)) ?_ fun _ _ _ h ↦ h.elim
  rintro es (err | ⟨attr⟩ | ⟨status⟩) d' hres
  · obtain ⟨herr, ok, hes⟩ := hres
    refine .pure ⟨ok, ?_, fun _ ↦ herr⟩
    rwa [List.append_nil]
  all_goals
    refine .ret_bind rfl (.pure (.of_remakes ?_ _))
    rw [List.append_nil]
    exact Remakes.use hres _

theorem ends_hsiNfs3Fsinfo (h : d.Held) (fh : NfsFh) (fattr : NfsFattr) :
    Ends (fun es r d' ↦ EndsHeld d es r.1 d') (fun _ _ _ ↦ False) (hsiNfs3Fsinfo fh fattr) d := by
  unfold hsiNfs3Fsinfo
  refine .ret_bind rfl (ends_call_held_bind h ?_ ?_)
  · intro es err d' ok herr hes
    refine .pure ⟨ok, ?_, fun _ ↦ herr⟩
    rwa [List.append_nil]
  · rintro es (⟨resok⟩ | ⟨status⟩) d' hes
    · have hset := hes.set (hsiFsinfoToSuper d'.layout.pageSize d'.sb resok) rfl rfl
      refine .ret_bind (x := hsfsPageSize) rfl (.ret_bind rfl ?_)
      dsimp only
      split
      · refine .ret_bind rfl (.pure (.of_remakes ?_ _))
        rw [List.append_nil]
        exact hset.use _
      · refine (ends_hsiNfs3DoGetattr hset.held _ _ _).bind ?_ fun _ _ _ h ↦ h.elim
        rintro es' ⟨ret, fattr', st⟩ d'' hret
        refine .ret_bind rfl (.pure ?_)
        obtain ⟨ok, hes', hret⟩ := hret
        rw [List.append_nil]
        exact ⟨ok, hset.trans (hes'.use _), hret⟩
    · refine .ret_bind rfl (.pure (.of_remakes ?_ _))
      rw [List.append_nil]
      exact hes.use _

theorem ends_hsiNfs3Pathconf (h : d.Held) {inode : Addr} {i : Inode} (hi : d.heap inode = some i) :
    Ends (fun es ret d' ↦ EndsHeld d es ret d') (fun _ _ _ ↦ False) (hsiNfs3Pathconf inode) d := by
  have hfh : (hsiNfs3Getfh3 inode).run d = .ret (.ok i.fh, d) := by
    unfold hsiNfs3Getfh3
    rw [run_bind_of_ret (load_run hi)]
    rfl
  unfold hsiNfs3Pathconf
  refine .ret_bind rfl (.ret_bind hfh (ends_call_held_bind h ?_ ?_))
  · intro es err d' ok herr hes
    refine .pure ⟨ok, ?_, fun _ ↦ herr⟩
    rwa [List.append_nil]
  · rintro es (⟨nameMax⟩ | ⟨status⟩) d' hes
    · refine .ret_bind rfl (.ret_bind rfl (.pure (.of_remakes ?_ _)))
      rw [List.append_nil]
      exact (hes.set { d'.sb with namlen := nameMax } rfl rfl).use _
    · refine .ret_bind rfl (.pure (.of_remakes ?_ _))
      rw [List.append_nil]
      exact hes.use _

/-- `hsi_nfs_fhget` makes no client. -/
theorem ends_hsiNfsFhget_held (h : d.Held) (hcache : d.CacheOk) (hsettled : d.Settled) (fh : NfsFh)
    (fattr : NfsFattr) :
    Ends (fun es root d' ↦ Remakes true d es d' ∧ d.Fhget fh fattr root d') (fun _ _ _ ↦ False)
      (hsiNfsFhget fh fattr) d := by
  have hends := (Ends.of_evolves (CacheOnly.fhget fh fattr) d).and
    (hsettled.ends_hsiNfsFhget fh fattr)
  intro tr
  refine wp_mono ?_ (fun _ _ _ h ↦ h.2.elim) (wp_and (hends tr) hcache.wp_hsiNfsFhget)
  rintro root d' _ ⟨⟨es, rfl, honly, hgot⟩, hfhget⟩
  have hnone : Decodes (leftEvents es) [] := by
    cases hgot with
    | unusable _ _ => exact .nil
    | denied _ _ _ => exact fun _ ↦ rfl
    | found _ _ _ _ _ => exact .nil
    | new _ _ => exact fun _ ↦ rfl
  exact ⟨es, rfl, .of_nil h hnone (by rw [honly.clients]) (by rw [honly.clients]) honly.clntp
    honly.aclClntp, hfhget⟩

/-- **`hsi_fill_super` ends with a client, unless it returns an error or the process ends.** -/
theorem ends_hsiFillSuper (h : d.Held) (hheap : ∀ p, d.heap p = none) (fh : NfsFh) :
    Ends (EndsHeld d) (fun es e d' ↦ Remakes true d es d' ∧ e ≠ .segv) (hsiFillSuper fh) d := by
  let d₁ : Daemon := { d with sb :=
    { d.sb with idTable := Table.Chains.empty, fhTable := Table.Chains.empty, currId := 0 } }
  have hboot : d₁.Booted := ⟨{ d with sb := { d.sb with currId := 0 } }, hheap, rfl, rfl⟩
  have hempty {p : Addr} {i : Inode} : d₁.heap p ≠ some i := by
    rw [hboot.heap]
    exact (Option.some_ne_none i).symm
  have hsettled : d₁.Settled := ⟨fun _ _ hi ↦ absurd hi hempty, fun _ _ hi ↦ absurd hi hempty⟩
  have hstart : Remakes true d [] d₁ := (Remakes.refl h).set _ rfl rfl
  have hfsinfo := ((ends_hsiNfs3Fsinfo hstart.held fh NfsFattr.fresh).and
    (.of_evolves (HandleFrame.grows.fsinfo fh NfsFattr.fresh) d₁)).and
    (.of_evolves (HandleFrame.keepsIdentity.fsinfo fh NfsFattr.fresh) d₁)
  unfold hsiFillSuper
  refine .ret_bind rfl (.ret_bind rfl ?_)
  refine hfsinfo.bind ?_ fun _ _ _ h ↦ h.1.1.elim
  rintro es ⟨ret, fattr⟩ d₂ ⟨⟨hret, hgrows⟩, hkeeps⟩
  obtain ⟨hcache₂, -⟩ := hgrows hboot.cacheOk
  have hsettled₂ := (hkeeps hsettled).settled
  obtain ⟨ok, hes, hok⟩ := hret
  have hes := hstart.trans hes
  dsimp only
  by_cases hzero : ret = 0
  · obtain rfl : ok = true := by
      by_contra hnot
      exact hok (Bool.eq_false_of_not_eq_true hnot) hzero
    rw [if_neg (not_not_intro hzero)]
    refine (ends_hsiNfsFhget_held hes.held hcache₂ hsettled₂ fh fattr).bind ?_ fun _ _ _ h ↦ h.elim
    rintro es' root d₃ ⟨hes', hfhget⟩
    rw [if_neg (by rw [hfhget.isErr_eq_false hcache₂]; decide)]
    obtain ⟨i, hload, hcached⟩ := hfhget.exists_load hcache₂
    have hroot := (hes.trans hes').set { d₃.sb with root := root } rfl rfl
    refine .ret_bind rfl (.ret_bind hload ?_)
    by_cases hone : i.ino = 1
    · have hpath := ends_hsiNfs3Pathconf hroot.held (hcached hone).2
      rw [hone]
      refine .ret_bind rfl (hpath.mono ?_ fun _ _ _ h ↦ h.elim)
      intro es'' ret' d₄ hret'
      rw [← List.append_assoc]
      exact .trans hroot hret'
    · have hassert : assertThat .rootIno (i.ino == 1) = Act.throw (.abort .rootIno) := by
        simp [assertThat, hone]
      rw [hassert]
      refine .of_fault rfl ⟨?_, by rintro ⟨⟩⟩
      rw [List.append_nil]
      exact hroot
  · rw [if_pos hzero]
    refine .pure ⟨ok, ?_, fun _ ↦ hzero⟩
    rw [List.append_nil]
    exact hes

end calls

/-! ## Calls of the mount daemon -/

section mountd

variable {d : Daemon} {held : Finset Client} {mntServer : ClntAddr} {dirname : Name}

/-- Only the clients have changed, and the same ones are held. -/
def Balanced (held : Finset Client) (d d' : Daemon) : Prop :=
  ∃ c : Clients, d' = { d with clients := c } ∧ c.Holds held

/-- Opening a client for the mount daemon. -/
theorem ends_mntOpenclnt_bind {β : Type} {proc : MountProc} {f : Option Client → Mh β}
    {Q : List MountEvent → β → Daemon → Prop} {E : List MountEvent → Fault → Daemon → Prop}
    (hnone : Ends (fun es ↦ Q (⟨.inr (.openclnt mntServer proc), false⟩ :: es))
      (fun es ↦ E (⟨.inr (.openclnt mntServer proc), false⟩ :: es)) (f none) d)
    (hsome : Ends (fun es ↦ Q (⟨.inr (.openclnt mntServer proc), true⟩ :: es))
      (fun es ↦ E (⟨.inr (.openclnt mntServer proc), true⟩ :: es)) (f (some d.clients.opened))
      { d with clients := d.clients.openNext }) :
    Ends Q E (mntOpenclnt mntServer proc >>= f) d := by
  have hopen : Ends (fun es new d' ↦
      es = [⟨.inr (.openclnt mntServer proc), false⟩] ∧ new = none ∧ d' = d ∨
      es = [⟨.inr (.openclnt mntServer proc), true⟩] ∧ new = some d.clients.opened ∧
        d' = { d with clients := d.clients.openNext }) (fun _ _ _ ↦ False)
      (mntOpenclnt mntServer proc) d := by
    refine .ask_bind ?_
    rintro (_ | _)
    · exact .pure (.inl ⟨rfl, rfl, rfl⟩)
    · exact .ret_bind rfl (.ret_bind rfl (.pure (.inr ⟨rfl, rfl, rfl⟩)))
  refine hopen.bind ?_ fun _ _ _ h ↦ h.elim
  rintro _ _ _ (⟨rfl, rfl, rfl⟩ | ⟨rfl, rfl, rfl⟩)
  · exact hnone
  · exact hsome

/-- A call through a client. -/
theorem ends_useAsk_bind {β : Type} {clnt : Client} {c : MountCall} {f : c.Res → Mh β}
    {Q : List MountEvent → β → Daemon → Prop} {E : List MountEvent → Fault → Daemon → Prop}
    (hf : ∀ r, Ends (fun es ↦ Q (⟨.inr c, r⟩ :: es)) (fun es ↦ E (⟨.inr c, r⟩ :: es)) (f r)
      { d with clients := d.clients.use clnt }) :
    Ends Q E ((Act.inl (useClient clnt) >>= fun _ ↦ (Act.ask (Sum.inr c) : Mh c.Res)) >>= f) d :=
  Ends.ask_bind hf

/-- How a mount request comes out. -/
inductive Tried (es : List MountEvent) : Int × Option Mountres3 → Prop
  | kept (res : Mountres3) : Decodes es [.answered (granted res), .kept (granted res)] →
      Tried es (0, some res)
  | failed (os : List Outcome) {r : Int × Option Mountres3} : Decodes es os →
      (∀ o ∈ os, ∃ g, o = .answered g) → r.1 ≠ 0 → Tried es r

theorem ends_hsiNfs3Mount (h : d.clients.Holds held) :
    Ends (fun es r d' ↦ Tried es r ∧ Balanced held d d') (fun _ _ _ ↦ False)
      (hsiNfs3Mount mntServer dirname) d := by
  have hclose := h.erase_opened ((h.openNext.use d.clients.opened).use d.clients.opened)
  unfold hsiNfs3Mount
  refine ends_mntOpenclnt_bind (.pure ⟨.failed [] (fun _ ↦ rfl) nofun (by decide), _, rfl, h⟩) ?_
  refine ends_useAsk_bind fun tres ↦ ?_
  refine .ask_bind fun tmp ↦ .ret_bind rfl (.ret_bind rfl ?_)
  cases tmp with
  | false =>
      refine .pure ⟨?_, _, rfl, hclose⟩
      cases tres with
      | error st => exact .failed [] (fun _ ↦ rfl) nofun (by decide)
      | ok res =>
          refine .failed [.answered (granted res)] (fun _ ↦ rfl) ?_ (by decide)
          exact fun o ho ↦ ⟨_, List.mem_singleton.1 ho⟩
  | true =>
      cases tres with
      | error st => exact .pure ⟨.failed [] (fun _ ↦ rfl) nofun st.2, _, rfl, hclose⟩
      | ok res => exact .pure ⟨.kept res fun _ ↦ rfl, _, rfl, hclose⟩

/-- The outcome of the last request of the retry loop. -/
def keptOutcome : Option Mountres3 → List Outcome
  | none => []
  | some res => [.answered (granted res), .kept (granted res)]

/-- Answers that were of no use. -/
def Answers (os : List Outcome) : Prop := ∀ o ∈ os, ∃ g, o = .answered g

/-- How the retry loop comes out: answers that were of no use, and perhaps one that was kept. -/
def Looped (es : List MountEvent) (r : Option Mountres3) : Prop :=
  ∃ os, Answers os ∧ Decodes es (os ++ keptOutcome r)

/-- A request that failed, and the rest of the loop. -/
theorem Looped.cons {es es' : List MountEvent} {os : List Outcome} {r : Option Mountres3}
    (hes : Decodes es os) (hos : Answers os) (h : Looped es' r) : Looped (es ++ es') r := by
  obtain ⟨os', hos', hes'⟩ := h
  refine ⟨os ++ os', fun o ho ↦ (List.mem_append.1 ho).elim (hos o) (hos' o), ?_⟩
  rw [List.append_assoc]
  exact hes.append hes'

theorem Balanced.trans {d' d'' : Daemon} (h : Balanced held d d') (h' : Balanced held d' d'') :
    Balanced held d d'' := by
  obtain ⟨c, rfl, -⟩ := h
  obtain ⟨c', rfl, hc'⟩ := h'
  exact ⟨c', rfl, hc'⟩

/-- **The retry loop destroys the clients it opens**, however often it goes round. -/
theorem ends_mountLoop (h : d.clients.Holds held) (fg : Bool) (timeout : Int) (rounds : Nat) :
    Ends (fun es r d' ↦ Looped es r ∧ Balanced held d d') (fun _ e _ ↦ e = .running)
      (mountLoop fg mntServer dirname timeout rounds) d := by
  induction rounds generalizing d with
  | zero => exact .of_fault rfl rfl
  | succ rounds ih =>
      unfold mountLoop
      refine (ends_hsiNfs3Mount h).bind ?_ fun _ _ _ h ↦ h.elim
      rintro es r d' ⟨htried, hd'⟩
      cases htried with
      | kept res hes =>
          refine .pure ⟨⟨[], nofun, ?_⟩, hd'⟩
          rw [List.append_nil]
          exact hes
      | failed os hes hos hret =>
          obtain ⟨ret, mntres⟩ := r
          -- what is left to do, after calls that say nothing about the mount
          have hgiveUp {es' : List MountEvent} (hes' : Decodes es' []) : Looped (es ++ es') none :=
            .cons hes hos ⟨[], nofun, hes'⟩
          have hagain (es' : List MountEvent) (hes' : Decodes es' []) :
              Ends (fun es'' r d'' ↦ Looped (es ++ (es' ++ es'')) r ∧ Balanced held d d'')
                (fun _ e _ ↦ e = .running) (mountLoop fg mntServer dirname timeout rounds) d' := by
            obtain ⟨c, rfl, hc⟩ := hd'
            refine (ih (d := { d with clients := c }) hc).mono ?_ fun _ _ _ h ↦ h
            rintro es'' r d'' ⟨hloop, hd''⟩
            exact ⟨.cons hes hos (.cons hes' nofun hloop), .trans ⟨c, rfl, hc⟩ hd''⟩
          dsimp only at hret ⊢
          rw [if_neg hret]
          cases fg with
          | false => exact hagain [] .nil
          | true =>
              refine .ask_bind fun e ↦ ?_
              split
              · refine .ask_bind fun t ↦ ?_
                split
                · exact .pure ⟨hgiveUp fun _ ↦ rfl, hd'⟩
                · exact hagain [⟨.inr .createerr, e⟩, ⟨.inr .time, t⟩] fun _ ↦ rfl
              · exact .pure ⟨hgiveUp fun _ ↦ rfl, hd'⟩

/-- The clients after `hsi_nfs3_unmount`. -/
def afterUnmount (sent : Bool) (c : Clients) : Clients :=
  if sent then (c.openNext.use c.opened).close c.opened else c

theorem holds_afterUnmount {c : Clients} (h : c.Holds held) (sent : Bool) :
    (afterUnmount sent c).Holds held := by
  cases sent with
  | false => exact h
  | true => exact h.erase_opened (h.openNext.use _)

theorem twice_afterUnmount {c : Clients} (h : c.Twice) (sent : Bool) :
    (afterUnmount sent c).Twice := by
  cases sent with
  | false => exact h
  | true => exact h.mono [c.opened] (congrArg _ Clients.use_closed)

/-- How `hsi_nfs3_unmount` comes out. -/
def umntOutcome (sent : Bool) : Outcome := if sent then .umnt else .umntUnopened

theorem ends_hsiNfs3Unmount :
    Ends (fun es _ d' ↦ ∃ sent, Decodes es [umntOutcome sent] ∧
        d' = { d with clients := afterUnmount sent d.clients }) (fun _ _ _ ↦ False)
      (hsiNfs3Unmount mntServer dirname) d := by
  unfold hsiNfs3Unmount
  refine ends_mntOpenclnt_bind (.pure ⟨false, fun _ ↦ rfl, rfl⟩) ?_
  refine ends_useAsk_bind fun res ↦ ?_
  refine .ret_bind rfl ?_
  cases res with
  | ok _ => exact .pure ⟨true, fun _ ↦ rfl, rfl⟩
  | error st => exact .pure ⟨true, fun _ ↦ rfl, rfl⟩

theorem ends_umntFailSb :
    Ends (fun es r d' ↦ r = none ∧ ∃ sent, Decodes es [umntOutcome sent] ∧
        d'.clients = afterUnmount sent d.destroyed) (fun _ _ _ ↦ False)
      (umntFailSb mntServer dirname) d := by
  have hunmount {d' : Daemon} (hd' : d'.clients = d.destroyed) :
      Ends (fun es r d'' ↦ r = none ∧ ∃ sent, Decodes es [umntOutcome sent] ∧
        d''.clients = afterUnmount sent d.destroyed) (fun _ _ _ ↦ False)
        (hsiNfs3Unmount mntServer dirname >>= fun _ ↦ (pure none : Mh (Option Addr))) d' := by
    refine ends_hsiNfs3Unmount.bind ?_ fun _ _ _ h ↦ h.elim
    rintro es _ _ ⟨sent, hes, rfl⟩
    refine .pure ⟨rfl, sent, ?_, ?_⟩
    · rwa [List.append_nil]
    · rw [← hd']
  refine .ret_bind rfl (.ret_bind rfl ?_)
  unfold umntFail
  cases hacl : d.sb.aclClntp with
  | none =>
      refine .ret_bind rfl (hunmount ?_)
      rw [Daemon.destroyed, hacl]
      rfl
  | some clnt =>
      refine .ret_bind rfl (.ret_bind rfl (hunmount ?_))
      rw [Daemon.destroyed, hacl]
      rfl

end mountd

/-! ## The whole mount -/

/-- The outcomes up to the calls of `hsi_fill_super`. -/
def begun (granted acl : Bool) : List Outcome :=
  [.answered granted, .kept granted, .created false true, .created true acl]

/-- **The ways to leave `hsx_fuse_mount`**: how the steps came out, what is returned and what is
left behind. -/
inductive Ended : List Outcome → Except Fault (Option Addr) → Daemon → Prop
  /-- No answer of the mount daemon was of use. -/
  | gaveUp {os : List Outcome} {d : Daemon} : Answers os → d.clients.Holds ∅ → Ended os (.ok none) d
  /-- The client for NFS could not be made, and the null pointer is destroyed. -/
  | noClient {os : List Outcome} {g : Bool} {d : Daemon} : Answers os →
      Ended (os ++ [.answered g, .kept g, .created false false]) (.error .segv) d
  /-- The mount daemon has refused the mount.  This is looked at when the clients have been made. -/
  | refused {os : List Outcome} {acl : Bool} {d : Daemon} : Answers os → d.Held →
      Ended (os ++ begun false acl) (.ok none) d
  /-- The process has ended within `hsi_fill_super`. -/
  | aborted {os : List Outcome} {acl : Bool} {mades : List Bool} {e : Fault} {d : Daemon} :
      Answers os →
      mades.all id = true → e ≠ .segv →
      Ended (os ++ begun true acl ++ mades.map (.created false)) (.error e) d
  /-- `hsi_fill_super` or `fuse_mount` has failed. -/
  | failed {os : List Outcome} {acl sent : Bool} {mades : List Bool} {d : Daemon} : Answers os →
      (if mades.all id then d.clients.Holds ∅ else d.clients.Twice) →
      Ended (os ++ begun true acl ++ mades.map (.created false) ++ [umntOutcome sent]) (.ok none) d
  | mounted {os : List Outcome} {mades : List Bool} {ch : Addr} {d : Daemon} : Answers os →
      mades.all id = true → d.Held →
      Ended (os ++ begun true d.sb.aclClntp.isSome ++ mades.map (.created false) ++ [.channel])
        (.ok (some ch)) d

/-- The end of a mount of which some steps have been made before. -/
def EndedAfter (pre : List Outcome) (es : List MountEvent) (out : Except Fault (Option Addr))
    (d : Daemon) :
    Prop := ∃ os, Decodes es os ∧ Ended (pre ++ os) out d

/-- Every execution of a piece of code ends the mount. -/
def EndsMount (pre : List Outcome) (x : Mh (Option Addr)) (d : Daemon) : Prop :=
  Ends (fun es r ↦ EndedAfter pre es (.ok r)) (fun es e ↦ EndedAfter pre es (.error e)) x d

/-- Calls that come out in some way have been made before. -/
theorem EndedAfter.append {pre os : List Outcome} {es es' : List MountEvent}
    {out : Except Fault (Option Addr)} {d : Daemon} (hes : Decodes es os)
    (h : EndedAfter (pre ++ os) es' out d) : EndedAfter pre (es ++ es') out d := by
  obtain ⟨os', hes', hend⟩ := h
  refine ⟨os ++ os', hes.append hes', ?_⟩
  rwa [← List.append_assoc]

section run

variable {pre os : List Outcome} {d : Daemon} {mntServer : ClntAddr} {dirname : Name}

/-- The rest of a mount, after some calls. -/
theorem EndsMount.after {x : Mh (Option Addr)} {es : List MountEvent}
    (h : EndsMount (pre ++ os) x d)
    (hes : Decodes es os) :
    Ends (fun es' r ↦ EndedAfter pre (es ++ es') (.ok r))
      (fun es' e ↦ EndedAfter pre (es ++ es') (.error e))
      x d :=
  Ends.mono h (fun _ _ _ hend ↦ .append hes hend) fun _ _ _ hend ↦ .append hes hend

theorem EndsMount.after_nil {x : Mh (Option Addr)} (h : EndsMount pre x d) (es : List MountEvent)
    (hes : Decodes es []) :
    Ends (fun es' r ↦ EndedAfter pre (es ++ es') (.ok r))
      (fun es' e ↦ EndedAfter pre (es ++ es') (.error e))
      x d := by
  refine EndsMount.after ?_ hes
  rwa [List.append_nil]

/-- `umnt_fail`, when the clients have been made. -/
theorem endsMount_umntFailSb (hpre : Answers pre) {acl ok : Bool} {mades : List Bool}
    (hmades : mades.all id = ok) (h : if ok then d.Held else d.Lost) :
    EndsMount (pre ++ begun true acl ++ mades.map (.created false))
      (umntFailSb mntServer dirname) d := by
  refine ends_umntFailSb.mono ?_ fun _ _ _ h ↦ h.elim
  rintro es _ d' ⟨rfl, sent, hes, hclients⟩
  refine ⟨_, hes, .failed hpre ?_⟩
  rw [hmades, hclients]
  cases ok with
  | true => exact holds_afterUnmount (Daemon.Held.holds_destroyed h) sent
  | false => exact twice_afterUnmount (Daemon.Lost.twice_destroyed h) sent

theorem endsMount_mountRoot (hpre : Answers pre) (h : d.Held) (hheap : ∀ p, d.heap p = none)
    (res : Mountres3) :
    EndsMount (pre ++ begun (granted res) d.sb.aclClntp.isSome)
      (mountRoot mntServer dirname res) d := by
  cases res with
  | fail st =>
      refine .pure ⟨[], .nil, ?_⟩
      rw [List.append_nil]
      exact .refused hpre h
  | ok fhandle =>
      refine (ends_hsiFillSuper h hheap fhandle).inl_bind ?_ ?_
      · rintro es ret d' ⟨ok, hes, hret⟩
        obtain ⟨mades, hdec, hmades⟩ := hes.decodes
        refine EndsMount.after ?_ hdec
        have hfail : EndsMount
          (pre ++ begun true d.sb.aclClntp.isSome ++ mades.map (.created false))
            (umntFailSb mntServer dirname) d' := endsMount_umntFailSb hpre hmades hes.clients
        by_cases hzero : ret = 0
        · obtain rfl : ok = true := by
            by_contra hnot
            exact hret (Bool.eq_false_of_not_eq_true hnot) hzero
          rw [if_neg (not_not_intro hzero)]
          refine .ask_bind ?_
          rintro (_ | ch)
          · exact hfail.after_nil [⟨.inr .fuseMount, none⟩] fun _ ↦ rfl
          · refine .pure ⟨[.channel], fun _ ↦ rfl, ?_⟩
            rw [← hes.aclClntp]
            exact .mounted hpre hmades hes.held
        · rw [if_pos hzero]
          exact hfail
      · rintro es e d' ⟨hes, hne⟩
        obtain ⟨mades, hdec, hmades⟩ := hes.decodes
        exact ⟨_, hdec, .aborted hpre hmades hne⟩

theorem endsMount_mountClients (hpre : Answers pre) (h : d.clients.Holds ∅)
    (hheap : ∀ p, d.heap p = none)
    (res : Mountres3) :
    EndsMount (pre ++ keptOutcome (some res)) (mountClients mntServer dirname res) d := by
  refine (ends_hsiNfs3ClntCreate false).inl_bind ?_ fun _ _ _ h ↦ h.elim
  intro es new d₁ hnew
  refine EndsMount.after ?_ (decodes_of_creates hnew)
  have hnone : EndsMount (pre ++ keptOutcome (some res) ++ [.created false false])
      (umntFail mntServer dirname none none) d₁ := by
    refine .of_fault rfl ⟨[], .nil, ?_⟩
    rw [List.append_nil, List.append_assoc]
    exact .noClient hpre
  cases hnew with
  | unopened => exact hnone
  | silent => exact hnone
  | made =>
      refine .ret_bind rfl ((ends_hsiNfs3ClntCreate true).inl_bind ?_ fun _ _ _ h ↦ h.elim)
      intro es' new d₂ hnew
      refine EndsMount.after ?_ (decodes_of_creates hnew)
      have hheap₂ (p : Addr) : d₂.heap p = none := by
        rw [hnew.heap_eq]
        exact hheap p
      have hroot : EndsMount (pre ++ begun (granted res) new.isSome)
        (mountRoot mntServer dirname res)
          { d₂ with sb := { d₂.sb with aclClntp := new } } :=
        endsMount_mountRoot hpre (hnew.held (h.openNext.use _)) hheap₂ res
      refine .ret_bind rfl ?_
      simp only [List.append_assoc]
      exact hroot

/-- The retry loop, and what comes after it. -/
theorem ends_mountLoop_bind (h : d.clients.Holds ∅) (hheap : ∀ p, d.heap p = none) (fg : Bool)
    (timeout : Int) (rounds : Nat) :
    Ends (fun es r ↦ EndedAfter [] es (.ok r))
      (fun es e d' ↦ e ≠ .running → EndedAfter [] es (.error e) d')
      (mountLoop fg mntServer dirname timeout rounds >>= fun
        | none => pure none
        | some mntres => mountClients mntServer dirname mntres) d := by
  refine (ends_mountLoop h fg timeout rounds).bind ?_ fun _ _ _ h hne ↦ absurd h hne
  rintro es r _ ⟨⟨os, hos, hes⟩, c, rfl, hc⟩
  cases r with
  | none =>
      refine .pure ⟨os, ?_, .gaveUp hos hc⟩
      rw [keptOutcome, List.append_nil] at hes
      rwa [List.append_nil]
  | some res =>
      have hrest : EndsMount ([] ++ (os ++ keptOutcome (some res)))
        (mountClients mntServer dirname res)
          { d with clients := c } :=
        endsMount_mountClients (d := { d with clients := c }) hos hc hheap res
      exact (hrest.after hes).mono (fun _ _ _ h ↦ h) fun _ _ _ h _ ↦ h

/-- **Every execution of `hsx_fuse_mount` that ends does so in one of these ways**, and only with a
specification that can be parsed there is a channel. -/
theorem ends_hsxFuseMount (m : MountArgs) (rounds : Nat) :
    Ends (fun es r d ↦ EndedAfter [] es (.ok r) d ∧ (r ≠ none → (hsiParseSpec m.spec).isSome))
      (fun es e d ↦ e ≠ .running → EndedAfter [] es (.error e) d)
        (hsxFuseMount m rounds) m.start := by
  have hstart : m.start.clients.Holds ∅ := Clients.holds_empty_iff.2 ⟨nofun, nofun⟩
  have hnone : EndedAfter [] [] (.ok none) m.start := ⟨[], .nil, .gaveUp nofun hstart⟩
  unfold hsxFuseMount
  split
  · exact .pure ⟨hnone, absurd rfl⟩
  cases hspec : hsiParseSpec m.spec with
  | none => exact .pure ⟨hnone, absurd rfl⟩
  | some host =>
      dsimp only
      split
      · exact .pure ⟨hnone, absurd rfl⟩
      split
      · exact .pure ⟨hnone, absurd rfl⟩
      refine .ret_bind rfl
        (.ask_bind fun t ↦ Ends.mono (ends_mountLoop_bind ?_ ?_ _ _ rounds) ?_ ?_)
      · exact hstart
      · exact fun _ ↦ rfl
      all_goals have htime : Decodes [⟨.inr .time, t⟩] [] := fun _ ↦ rfl
      · exact fun es r d hend ↦ ⟨.append htime hend, fun _ ↦ rfl⟩
      · exact fun es e d hend hne ↦ .append htime (hend hne)

end run

end Hsfs.Mount
