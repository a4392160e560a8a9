import Hsfs.Mount.Outcomes

/-!
# All or nothing

A mount that fails should leave no RPC client behind and no entry with the mount daemon, and one
that succeeds should leave what a later unmount destroys.  Whether it does depends on how the steps
came out, and `Clean` says for which outcomes it does.

Between a mount and the unmount there are requests, with reconnects of their own.  Whatever they do,
the clients that are open are among those of the superblock; the unmount destroys one of the two.
-/

namespace Hsfs

open Interact Interact.Act

/-! ## Clients during a session -/

/-- Every client that is open is one of the superblock. -/
def Daemon.OnlyOwned (d : Daemon) : Prop := ∀ c, d.clients.IsOpen c → d.Owns c

/-- The open clients go on to be those of the superblock, and no client for access control lists
appears. -/
structure KeepsOwned (d : Daemon) (_ : List Event) (d' : Daemon) : Prop where
  owned : d.OnlyOwned → d'.OnlyOwned
  aclClntp : d.sb.aclClntp = none → d'.sb.aclClntp = none

namespace KeepsOwned

variable {d d' : Daemon}

theorem composes : Composes KeepsOwned where
  nil := fun _ ↦ ⟨id, id⟩
  append := fun h h' ↦ ⟨fun hd ↦ h'.owned (h.owned hd), fun hd ↦ h'.aclClntp (h.aclClntp hd)⟩

/-- The superblock has the same clients, and no others have been opened. -/
theorem of_isOpen (es : List Event) (hopen : ∀ c, d'.clients.IsOpen c → d.clients.IsOpen c)
    (hclntp : d'.sb.clntp = d.sb.clntp) (hacl : d'.sb.aclClntp = d.sb.aclClntp) :
      KeepsOwned d es d' where
  owned := by
    intro hd c hc
    unfold Daemon.Owns
    rw [hclntp, hacl]
    exact hd c (hopen c hc)
  aclClntp := hacl.trans

theorem of_cacheOnly {es : List Event} (h : CacheOnly d es d') : KeepsOwned d es d' :=
  of_isOpen es (fun c hc ↦ by rwa [h.clients] at hc) h.clntp h.aclClntp

/-- Nothing about the clients has changed. -/
theorem of_eq (es : List Event) (hclients : d'.clients = d.clients) (hsb : d'.sb = d.sb) :
    KeepsOwned d es d' :=
  of_isOpen es (fun c hc ↦ by rwa [hclients] at hc) (by rw [hsb]) (by rw [hsb])

theorem use (clnt : Client) (es : List Event) : KeepsOwned d es (d.useClient clnt) :=
  of_isOpen es (fun _ ↦ Clients.isOpen_use.1) rfl rfl

theorem close (clnt : Client) (es : List Event) : KeepsOwned d es (d.closeClient clnt) :=
  of_isOpen es (fun _ hc ↦ (Clients.isOpen_close.1 hc).1) rfl rfl

/-- A client is opened, and destroyed again. -/
theorem open_close (es : List Event) :
    KeepsOwned d es (d.openClient.closeClient d.clients.opened) := by
  refine of_isOpen es (fun c hc ↦ ?_) rfl rfl
  obtain ⟨hopen, hne⟩ := Clients.isOpen_close.1 hc
  exact (Clients.eq_or_isOpen_of_openNext (Clients.isOpen_use.1 hopen)).resolve_left hne

/-- A client takes the place of one that has been destroyed. -/
theorem replace {clnt : Client} (hown : d.Owns clnt) (hclosed : ¬ d.clients.IsOpen clnt)
    (es : List Event) :
    KeepsOwned d es (d.openClient.replaceClient clnt d.clients.opened) := by
  have hopen {c : Client} (hc : d.openClient.clients.IsOpen c) : c = d.clients.opened ∨
    d.clients.IsOpen c :=
    Clients.eq_or_isOpen_of_openNext (Clients.isOpen_use.1 hc)
  unfold Daemon.replaceClient
  by_cases hc : clnt = d.sb.clntp
  · rw [if_pos (show clnt = d.openClient.sb.clntp from hc)]
    refine ⟨fun hd c hc' ↦ ?_, id⟩
    rcases hopen hc' with rfl | hc'
    · exact .inl rfl
    · refine .inr ((hd c hc').resolve_left ?_)
      rintro rfl
      exact hclosed (hc ▸ hc')
  · have hacl := hown.resolve_left hc
    rw [if_neg (show ¬ clnt = d.openClient.sb.clntp from hc)]
    refine ⟨fun hd c hc' ↦ ?_, fun hnone ↦ ?_⟩
    · rcases hopen hc' with rfl | hc'
      · exact .inr rfl
      · refine .inl ((hd c hc').resolve_right fun hc ↦ ?_)
        rw [hacl] at hc
        exact hclosed (Option.some.inj hc ▸ hc')
    · rw [hnone] at hacl
      exact nomatch hacl

theorem reconnect (clnt : Client) : Evolves KeepsOwned (hsiNfs3ClntReconnect clnt) := by
  intro d tr
  by_cases hown : d.Owns clnt
  · have hclose (es : List Event) : KeepsOwned d es (d.closeClient clnt) := close clnt es
    have hclosed : ¬ (d.closeClient clnt).clients.IsOpen clnt :=
      fun h ↦ (Clients.isOpen_close.1 h).2 rfl
    refine wp_hsiNfs3ClntReconnect hown ?_ ?_ ?_
    · rintro acl _ rfl
      exact ⟨_, rfl, hclose _⟩
    · rintro acl new _ _ rfl rfl rfl
      exact ⟨_, List.append_assoc .., composes.append (hclose _) (open_close _)⟩
    · rintro acl new _ _ rfl rfl rfl
      exact ⟨_, List.append_assoc ..,
        composes.append (hclose _) (replace (d := d.closeClient clnt) hown hclosed _)⟩
  · unfold hsiNfs3ClntReconnect
    obtain ⟨hc, hacl⟩ := not_or.1 hown
    rw [wp_bind, wp_get, wp_ite, if_neg hc, wp_ite, if_neg hacl]
    exact ⟨[], (List.append_nil tr).symm, close clnt []⟩

theorem call (clnt : Client) (req : Rpc) : Evolves KeepsOwned (hsiNfs3ClntCall clnt req) :=
  evolves_call_of_reconnect composes
    (fun clnt ↦ .bind composes (.modify fun _ ↦ use clnt []) fun _ ↦ .ask fun _ _ ↦ of_eq _ rfl rfl)
    reconnect clnt

theorem freeres (clnt : Client) : Evolves KeepsOwned (clntFreeres clnt) :=
  .modify fun _ ↦ use clnt []

end KeepsOwned

theorem HandleFrame.keepsOwned : HandleFrame (Evolves KeepsOwned) fun _ ↦ True where
  closed := KeepsOwned.composes.closed
  malloc := .ask fun _ _ ↦ .of_eq _ rfl rfl
  callSb := fun req _ ↦ .get_bind fun d ↦ KeepsOwned.call d.sb.clntp req
  freeresSb := .get_bind fun d ↦ KeepsOwned.freeres d.sb.clntp
  fhget := fun fh fattr ↦ (CacheOnly.fhget fh fattr).mono fun _ _ _ ↦ .of_cacheOnly
  refresh := fun p fattr ↦ (CacheOnly.refresh p fattr).mono fun _ _ _ ↦ .of_cacheOnly
  setCookieVerf := fun p _ ↦ (CacheOnly.update p _).mono fun _ _ _ ↦ .of_cacheOnly
  super := fun _ hf ↦ .modify fun d ↦ .of_isOpen _ (fun _ ↦ id) (hf d.sb).clntp (hf d.sb).aclClntp
  clntp := fun _ hf ↦ .get_bind fun d ↦ hf d.sb.clntp trivial
  aclClntp := fun _ hf ↦ .get_bind fun d ↦ hf d.sb.aclClntp fun _ _ ↦ trivial
  call := fun c _ req _ ↦ KeepsOwned.call c req
  list := fun c _ req _ ↦ KeepsOwned.call c req
  freeres := fun c _ ↦ KeepsOwned.freeres c

theorem KeepsOwned.iput (p : Addr) : Evolves KeepsOwned (hsfsIput p) :=
  (CacheOnly.iput p).mono fun _ _ _ ↦ .of_cacheOnly

/-- **The handlers leave no client open that is not in the superblock.** -/
theorem HandlerFrame.keepsOwned : HandlerFrame (Evolves KeepsOwned) where
  toOpFrame := HandleFrame.keepsOwned.op
  reply := fun _ _ ↦ .modify fun _ ↦ .of_eq _ rfl rfl
  answer := fun _ ↦ .modify fun _ ↦ .of_eq _ rfl rfl
  touch := fun _ ↦ .modify fun _ ↦ .of_eq _ rfl rfl
  priv := fun p _ ↦ (CacheOnly.update p _).mono fun _ _ _ ↦ .of_cacheOnly
  owner := fun p _ _ ↦ (CacheOnly.update p _).mono fun _ _ _ ↦ .of_cacheOnly
  iput := KeepsOwned.iput
  readdir := HandleFrame.keepsOwned.readdir
  readdirPlus := HandleFrame.keepsOwned.readdirPlus KeepsOwned.iput

/-- Requests have been handled, one after the other. -/
def Daemon.Serves : Daemon → Daemon → Prop :=
  Relation.ReflTransGen fun d d' ↦ ∃ (req : Request) (es : List Event), req.Handled d es d'

/-- **Requests leave no client open that is not in the superblock**, however many there are. -/
theorem Daemon.Serves.keepsOwned {d d' : Daemon} (h : d.Serves d') : KeepsOwned d [] d' := by
  induction h with
  | refl => exact KeepsOwned.composes.nil d
  | tail _ hstep ih =>
      obtain ⟨req, es, rounds, hx⟩ := hstep
      obtain ⟨es', -, hkeeps⟩ := (HandlerFrame.keepsOwned.handle rounds req).of_exec hx
      exact ⟨fun hd ↦ hkeeps.owned (ih.owned hd), fun hd ↦ hkeeps.aclClntp (ih.aclClntp hd)⟩

end Hsfs

namespace Hsfs.Mount

open Interact Interact.Act

/-! ## Unmounting -/

section unmount

variable {d : Daemon} {spec : Name}

/-- The clients after an unmount, if it goes to the end or not. -/
def Unmounted (d d' : Daemon) : Prop :=
  ∃ sent, d'.clients = afterUnmount sent (d.clients.close d.sb.clntp)

/-- **An unmount destroys the client for NFS**, and the one that it opens. -/
theorem ends_hsxFuseUnmount (hspec : (hsiParseSpec spec).isSome) (addr : SockaddrIn) :
    Ends (fun _ _ ↦ Unmounted d) (fun _ _ ↦ Unmounted d) (hsxFuseUnmount spec addr) d := by
  obtain ⟨host, hhost⟩ := Option.isSome_iff_exists.1 hspec
  unfold hsxFuseUnmount
  rw [hhost]
  refine .ask_bind fun _ ↦ .ret_bind rfl (.ret_bind rfl (.ret_bind rfl ?_))
  refine (Ends.of_evolves (CacheOnly.iput _) _).inl_bind ?_ fun es _ d' honly ↦
    ⟨false, honly.clients⟩
  intro es _ d' honly
  refine ends_hsiNfs3Unmount.mono ?_ fun _ _ _ h ↦ h.elim
  rintro es' _ _ ⟨sent, -, rfl⟩
  refine ⟨sent, ?_⟩
  change afterUnmount sent d'.clients = _
  rw [honly.clients]

theorem unmounted_of_exec (hspec : (hsiParseSpec spec).isSome) {addr : SockaddrIn}
    {es : List MountEvent}
    {out : Except Fault Int} {d' : Daemon}
    (hx : Prog.Exec Server.record ((hsxFuseUnmount spec addr).run d) [] (out, d') es) :
      Unmounted d d' := by
  have hends := ends_hsxFuseUnmount (d := d) hspec addr
  cases out with
  | ok _ => exact hends.exec_ok hx
  | error _ => exact hends.exec_error hx

/-- `hsi_nfs3_unmount` leaves no client open. -/
theorem isOpen_of_afterUnmount {c : Clients} {sent : Bool} {x : Client}
    (h : (afterUnmount sent c).IsOpen x) : c.IsOpen x := by
  cases sent with
  | false => exact h
  | true =>
      obtain ⟨hopen, hne⟩ := Clients.isOpen_close.1 h
      exact (Clients.eq_or_isOpen_of_openNext (Clients.isOpen_use.1 hopen)).resolve_left hne

/-- Without a client for access control lists, an unmount leaves no client open. -/
theorem Unmounted.not_isOpen {d' : Daemon} (h : Unmounted d d') (howned : d.OnlyOwned)
    (hacl : d.sb.aclClntp = none) (c : Client) : ¬ d'.clients.IsOpen c := by
  obtain ⟨sent, hclients⟩ := h
  intro hc
  rw [hclients] at hc
  obtain ⟨hopen, hne⟩ := Clients.isOpen_close.1 (isOpen_of_afterUnmount hc)
  rcases howned c hopen with heq | hsome
  · exact hne heq
  · rw [hacl] at hsome
    exact nomatch hsome

/-- The client for access control lists stays open. -/
theorem Unmounted.isOpen {d' : Daemon} (h : Unmounted d d') (hheld : d.Held) {c : Client}
    (hacl : d.sb.aclClntp = some c) : d'.clients.IsOpen c := by
  obtain ⟨sent, hclients⟩ := h
  rw [hclients]
  refine (holds_afterUnmount hheld.close.holds sent).isOpen_iff.2 ?_
  change c ∈ d.sb.aclClntp.toFinset
  rw [hacl]
  exact Finset.mem_singleton_self c

end unmount

/-- Every call can be answered. -/
instance (c : Call ⊕ MountCall) : Nonempty (Sum.elim Call.Res MountCall.Res c) :=
  match c with
  | .inl (.clntCall _ _) => ⟨RpcReply.failed 0⟩
  | .inl (.openclnt _) => ⟨false⟩
  | .inl (.ping _) => ⟨false⟩
  | .inl (.mallocInode _ _ avoid) => ⟨(none : Option (FreeAddr avoid))⟩
  | .inl .malloc => ⟨false⟩
  | .inr (.openclnt _ _) => ⟨false⟩
  | .inr (.mnt _ _) => ⟨(.error ⟨1, by decide⟩ : ClntRes Mountres3)⟩
  | .inr (.mallocFhandle _) => ⟨false⟩
  | .inr (.umnt _ _) => ⟨(.error ⟨1, by decide⟩ : ClntRes Unit)⟩
  | .inr .createerr => ⟨(⟨0, 0⟩ : CreateErr)⟩
  | .inr .time => ⟨(0 : Int)⟩
  | .inr .fuseMount => ⟨(none : Option Addr)⟩
  | .inr .fuseUnmount => ⟨()⟩

/-! ## The result -/

/-- An execution of `hsx_fuse_mount` that has come to an end, whatever the steps were answered and
however often the mount daemon was asked. -/
def MountRun (m : MountArgs) (es : List MountEvent) (out : Except Fault (Option Addr))
    (d : Daemon) : Prop :=
  (∃ rounds, Prog.Exec Server.record ((hsxFuseMount m rounds).run m.start) [] (out, d) es) ∧
    out ≠ .error .running

/-- What a mount is to leave behind.  If it returns null, every client that was opened has been
destroyed once and nothing else has been destroyed, and `MOUNTPROC_UMNT` has been called if the
mount daemon has granted the mount and only then.  If it returns a channel, an unmount leaves no
client open, whatever requests there are before it.  And it does not end the process by destroying a
null pointer. -/
def AllOrNothing (m : MountArgs) (es : List MountEvent) : Except Fault (Option Addr) → Daemon → Prop
  | .ok none, d =>
      (∀ c < d.clients.opened, d.clients.closed.count c = 1) ∧
      (∀ c ∈ d.clients.closed, c < d.clients.opened) ∧
      (es.any sendsUmnt = true ↔ es.any grants = true)
  | .ok (some _), d =>
      ∀ d', d.Serves d' → ∀ addr es' out d'',
        Prog.Exec Server.record ((hsxFuseUnmount m.spec addr).run d') [] (out, d'') es' →
          ∀ c, ¬ d''.clients.IsOpen c
  | .error e, _ => e ≠ .segv

/-- The steps come out so that a mount is all or nothing: every attempt to make a client for NFS
succeeds, within `hsi_fill_super` too; the mount daemon does not refuse the mount, and if it grants
the mount, a reply that does so is kept; there is a client to call `MOUNTPROC_UMNT` with; and if
`fuse_mount` succeeds, no client for access control lists has been made. -/
def Clean (os : List Outcome) : Prop :=
  .created false false ∉ os ∧ .kept false ∉ os ∧ (.answered true ∈ os → .kept true ∈ os) ∧
    .umntUnopened ∉ os ∧ (.channel ∈ os → .created true true ∉ os)

instance (os : List Outcome) : Decidable (Clean os) := inferInstanceAs (Decidable (_ ∧ _))

namespace Answers

variable {os l : List Outcome} (h : Answers os)

include h

theorem notMem {o : Outcome} (hne : ∀ g, o ≠ .answered g) : o ∉ os := by
  intro ho
  obtain ⟨g, hg⟩ := h o ho
  exact hne g hg

theorem mem_append (o : Outcome) (hne : ∀ g, o ≠ .answered g) : o ∈ os ++ l ↔ o ∈ l := by
  rw [List.mem_append, or_iff_right (h.notMem hne)]

/-- Answers of no use are clean as long as none of them grants the mount. -/
theorem clean_iff : Clean os ↔ .answered true ∉ os := by
  have hkept : .kept true ∉ os := h.notMem nofun
  constructor
  · exact fun hclean hgranted ↦ hkept (hclean.2.2.1 hgranted)
  · exact fun hgranted ↦ ⟨h.notMem nofun, h.notMem nofun, fun hmem ↦ absurd hmem hgranted,
      h.notMem nofun, fun hmem ↦ absurd hmem (h.notMem nofun)⟩

/-- Once a reply that grants the mount has been kept, the answers before it do not matter. -/
theorem clean_append_iff (hkept : .kept true ∈ l) :
    Clean (os ++ l) ↔ .created false false ∉ l ∧ .kept false ∉ l ∧ .umntUnopened ∉ l ∧
      (.channel ∈ l → .created true true ∉ l) := by
  unfold Clean
  rw [h.mem_append (.created _ _) nofun, h.mem_append (.kept false) nofun,
    h.mem_append (.kept true) nofun, h.mem_append .umntUnopened nofun, h.mem_append .channel nofun,
      h.mem_append (.created true _) nofun]
  exact and_congr_right fun _ ↦ and_congr_right fun _ ↦ and_iff_right fun _ ↦ hkept

end Answers

theorem all_id_iff {mades : List Bool} : mades.all id = true ↔ false ∉ mades := by
  rw [List.all_eq_true]
  constructor
  · exact fun h hmem ↦ Bool.noConfusion (h false hmem)
  · exact fun h b hb ↦ Bool.eq_true_of_not_eq_false fun hfalse ↦ h (hfalse ▸ hb)

section ended

variable {m : MountArgs} {es : List MountEvent} {out : Except Fault (Option Addr)} {d : Daemon}

/-- The property for a mount that returns null, in terms of the outcomes. -/
theorem allOrNothing_none_iff :
    AllOrNothing m es (.ok none) d ↔
      d.clients.Holds ∅ ∧ (.umnt ∈ outcomes es ↔ .answered true ∈ outcomes es) := by
  rw [Clients.holds_empty_iff, umnt_mem_outcomes, answered_mem_outcomes, and_assoc]
  exact Iff.rfl

/-- The property for a mount that returns a channel. -/
theorem allOrNothing_some_iff {ch : Addr} (hspec : (hsiParseSpec m.spec).isSome) (hheld : d.Held) :
    AllOrNothing m es (.ok (some ch)) d ↔ d.sb.aclClntp = none := by
  constructor
  · intro h
    cases hacl : d.sb.aclClntp with
    | none => rfl
    | some c =>
        -- unmounting at once leaves the client open
        obtain ⟨⟨out, d'⟩, es', hx⟩ :=
          Prog.exists_exec_record ((hsxFuseUnmount m.spec ⟨0, 0, 0⟩).run d) []
        exact absurd ((unmounted_of_exec hspec hx).isOpen hheld hacl) (h d .refl _ es' out d' hx c)
  · intro hacl d' hserves addr es' out d'' hx c
    have howned : d.OnlyOwned := by
      intro c hc
      rw [hheld.holds.isOpen_iff, hacl] at hc
      exact .inl (Finset.mem_singleton.1 hc)
    have hkeeps := hserves.keepsOwned
    exact (unmounted_of_exec hspec hx).not_isOpen (hkeeps.owned howned) (hkeeps.aclClntp hacl) c

/-- **For each way to leave `hsx_fuse_mount`, the property holds if the outcomes are clean, and only
then.** -/
theorem Ended.allOrNothing_iff (hend : Ended (outcomes es) out d)
    (hspec : ∀ ch, out = .ok (some ch) → (hsiParseSpec m.spec).isSome) :
    AllOrNothing m es out d ↔ Clean (outcomes es) := by
  generalize hos : outcomes es = os at hend
  cases hend with
  | gaveUp hans hholds =>
      rw [allOrNothing_none_iff, hos, hans.clean_iff, and_iff_right hholds]
      exact iff_false_left (hans.notMem nofun)
  | noClient hans =>
      refine iff_of_false (fun h ↦ h rfl) fun hclean ↦ hclean.1 ?_
      exact List.mem_append_right _ (by simp)
  | refused hans hheld =>
      refine iff_of_false (fun h ↦ ?_) fun hclean ↦ hclean.2.1 ?_
      · have hempty := (allOrNothing_none_iff.1 h).1.unique hheld.holds
        exact Finset.insert_ne_empty _ _ hempty.symm
      · exact List.mem_append_right _ (by simp [begun])
  | @aborted os acl mades _ _ hans hmades hne =>
      rw [List.append_assoc, hans.clean_append_iff (by simp [begun])]
      have hall : false ∉ mades := all_id_iff.1 hmades
      exact iff_of_true hne (by simpa [begun] using hall)
  | @failed os acl sent mades _ hans hclients =>
      rw [allOrNothing_none_iff, hos, List.append_assoc, List.append_assoc,
        hans.clean_append_iff (by simp [begun])]
      have hholds : d.clients.Holds ∅ ↔ false ∉ mades := by
        rw [← all_id_iff]
        split at hclients
        · next hall => exact iff_of_true hclients hall
        · next hall => exact iff_of_false hclients.not_holds hall
      rw [hholds, hans.mem_append .umnt nofun]
      cases sent with
      | false => simp [begun, umntOutcome]
      | true => simp [begun, umntOutcome]
  | @mounted os mades ch _ hans hmades hheld =>
      rw [allOrNothing_some_iff (hspec ch rfl) hheld, List.append_assoc, List.append_assoc,
        hans.clean_append_iff (by simp [begun])]
      have hall : false ∉ mades := all_id_iff.1 hmades
      cases hacl : d.sb.aclClntp with
      | none => simpa [begun] using hall
      | some c => simp [begun]

end ended

/-- **A mount is all or nothing if its steps come out clean, and only then.** -/
theorem mount_allOrNothing_iff {m : MountArgs} {es : List MountEvent}
    {out : Except Fault (Option Addr)}
    {d : Daemon} (hrun : MountRun m es out d) : AllOrNothing m es out d ↔ Clean (outcomes es) := by
  obtain ⟨⟨rounds, hx⟩, hout⟩ := hrun
  have hends := ends_hsxFuseMount m rounds
  have hafter : EndedAfter [] es out d := by
    cases out with
    | ok r => exact (hends.exec_ok hx).1
    | error e => exact hends.exec_error hx fun he ↦ hout (congrArg _ he)
  obtain ⟨os, hes, hend⟩ := hafter
  rw [List.nil_append, ← hes.outcomes_eq] at hend
  refine hend.allOrNothing_iff ?_
  rintro ch rfl
  exact (hends.exec_ok hx).2 nofun

/-! ## Two mounts -/

/-- A mount in the foreground, from a host that can be resolved. -/
def sampleArgs : MountArgs := ⟨.sample, fun _ ↦ .ok 1, true, nameOf "h:/e", none, 0⟩

/-- An environment in which everything works, up to what the mount daemon answers and
`fuse_mount`. -/
def mountAnswer (mnt : Mountres3) : (c : Call ⊕ MountCall) →
    Option (Sum.elim Call.Res MountCall.Res c)
  | .inl c => sampleAnswer c
  | .inr (.openclnt _ _) => some true
  | .inr (.mnt _ _) => some (.ok mnt)
  | .inr (.mallocFhandle _) => some true
  | .inr (.umnt _ _) => some (.ok ())
  | .inr .createerr => some (⟨0, 0⟩ : CreateErr)
  | .inr .time => some (0 : Int)
  | .inr .fuseMount => some none
  | .inr .fuseUnmount => some ()

/-- Mount with these answers. -/
def playRun (mnt : Mountres3) : Option ((Except Fault (Option Addr) × Daemon) × List MountEvent) :=
  ((hsxFuseMount sampleArgs 1).run sampleArgs.start).eval (Prog.recorded (mountAnswer mnt)) []

theorem mountRun_of_play {mnt : Mountres3} {r : Option Addr} {d : Daemon} {es : List MountEvent}
    (h : playRun mnt = some ((.ok r, d), es)) : MountRun sampleArgs es (.ok r) d :=
  ⟨⟨1, Prog.exec_record_of_eval h⟩, nofun⟩

/-- The run ended with a null pointer, and the rest of it passes a test. -/
def endsNull (test : Daemon → List MountEvent → Bool) :
    (Except Fault (Option Addr) × Daemon) × List MountEvent → Bool
  | ((.ok none, d), es) => test d es
  | _ => false

theorem exists_mountRun (mnt : Mountres3) (test : Daemon → List MountEvent → Bool)
    (h : (playRun mnt).any (endsNull test) = true) :
    ∃ es d, MountRun sampleArgs es (.ok none) d ∧ test d es = true := by
  obtain ⟨⟨⟨out, d⟩, es⟩, hplay, htest⟩ := (Option.any_eq_true _ _).1 h
  unfold endsNull at htest
  split at htest
  · next heq =>
      cases heq
      exact ⟨es, d, mountRun_of_play hplay, htest⟩
  · exact nomatch htest

theorem mount_allOrNothing_iff_unmounted :
    ∃ es d, MountRun sampleArgs es (.ok none) d ∧ Clean (outcomes es) ∧ .umnt ∈ outcomes es ∧
      AllOrNothing sampleArgs es (.ok none) d := by
  obtain ⟨es, d, hrun, htest⟩ := exists_mountRun (.ok sampleRoot)
    (fun _ es ↦ decide (Clean (outcomes es) ∧ .umnt ∈ outcomes es)) (by decide +kernel)
  obtain ⟨hclean, humnt⟩ := of_decide_eq_true htest
  exact ⟨es, d, hrun, hclean, humnt, (mount_allOrNothing_iff hrun).2 hclean⟩

/-- If the mount daemon refuses the mount, the client for NFS has been made and is not destroyed. -/
theorem not_mount_allOrNothing :
    ¬ ∀ m es out d, MountRun m es out d → AllOrNothing m es out d := by
  intro h
  obtain ⟨es, d, hrun, htest⟩ := exists_mountRun (.fail ⟨13, by decide⟩)
    (fun d _ ↦ decide (1 < d.clients.opened ∧ d.clients.closed.count 1 = 0)) (by decide +kernel)
  obtain ⟨hopened, hcount⟩ := of_decide_eq_true htest
  have hone := (h sampleArgs es (.ok none) d hrun).1 1 hopened
  rw [hcount] at hone
  exact absurd hone Nat.zero_ne_one

end Hsfs.Mount
