import Hsfs.Daemon.Cache
import Hsfs.Daemon.Client

/-!
# What the two halves of the daemon leave alone

The functions of the inode cache change inodes and tables, and nothing about the RPC
clients.  The functions that call the server change the clients, and nothing about the
inodes.  Neither answers the kernel.
-/

namespace Hsfs

open Interact Interact.Act

/-- What no function below the request handlers changes: what was said to the kernel, and
the root. -/
structure Silent (d : Daemon) (_ : List Event) (d' : Daemon) : Prop where
  layout : d'.layout = d.layout
  replies : d'.replies = d.replies
  touched : d'.touched = d.touched
  root : d'.sb.root = d.sb.root

/-- What the functions of the inode cache leave alone. -/
structure CacheOnly (d : Daemon) (es : List Event) (d' : Daemon) : Prop extends Silent d es d' where
  clients : d'.clients = d.clients
  clntp : d'.sb.clntp = d.sb.clntp
  aclClntp : d'.sb.aclClntp = d.sb.aclClntp

/-- What the functions that call the server leave alone. -/
structure ClientsOnly (d : Daemon) (es : List Event) (d' : Daemon) : Prop
    extends Silent d es d' where
  heap : d'.heap = d.heap
  fhTable : d'.sb.fhTable = d.sb.fhTable
  idTable : d'.sb.idTable = d.sb.idTable
  currId : d'.sb.currId = d.sb.currId

theorem Silent.composes : Composes Silent where
  nil := fun _ ↦ ⟨rfl, rfl, rfl, rfl⟩
  append := fun h h' ↦ ⟨h'.layout.trans h.layout, h'.replies.trans h.replies,
    h'.touched.trans h.touched, h'.root.trans h.root⟩

theorem CacheOnly.composes : Composes CacheOnly where
  nil := fun _ ↦ ⟨⟨rfl, rfl, rfl, rfl⟩, rfl, rfl, rfl⟩
  append := fun h h' ↦ ⟨Silent.composes.append h.toSilent h'.toSilent,
    h'.clients.trans h.clients, h'.clntp.trans h.clntp, h'.aclClntp.trans h.aclClntp⟩

theorem ClientsOnly.composes : Composes ClientsOnly where
  nil := fun _ ↦ ⟨⟨rfl, rfl, rfl, rfl⟩, rfl, rfl, rfl, rfl⟩
  append := fun h h' ↦ ⟨Silent.composes.append h.toSilent h'.toSilent, h'.heap.trans h.heap,
    h'.fhTable.trans h.fhTable, h'.idTable.trans h.idTable, h'.currId.trans h.currId⟩

/-- Overwriting an inode moves the daemon along a relation if it does so where there is an inode. -/
theorem evolves_update {r : Daemon → List Event → Daemon → Prop} (hr : Composes r) {p : Addr}
    {f : Inode → Inode} (h : ∀ d i, d.heap p = some i → r d [] (d.setInode p (f i))) :
    Evolves r (update p f) := by
  intro d tr
  unfold update
  cases hi : d.heap p with
  | some i =>
      simp only [wp_bind, wp_get, hi, wp_modify]
      exact ⟨[], (List.append_nil tr).symm, h d i hi⟩
  | none =>
      simp only [wp_bind, wp_get, hi]
      exact Evolves.ite (.pure hr ()) (.throw hr _) d tr

/-- Refreshing an inode moves the daemon along a relation if it does so where the inode accepts the
attributes. -/
theorem evolves_refresh {r : Daemon → List Event → Daemon → Prop} (hr : Composes r) {p : Addr}
    {fattr : NfsFattr} (h : ∀ d i, d.heap p = some i → i.accepts fattr = true →
      r d [] (d.setInode p (i.setAttrs fattr))) : Evolves r (nfsRefreshInode p fattr) := by
  intro d tr
  have hnil : ∃ es, tr = tr ++ es ∧ r d es d := ⟨[], (List.append_nil tr).symm, hr.nil d⟩
  cases hi : d.heap p with
  | some i =>
      have hrun := nfsRefreshInode_run hi fattr
      split at hrun
      · split at hrun
        · next ha =>
            rw [wp_of_ret hrun]
            exact ⟨[], (List.append_nil tr).symm, h d i hi ha⟩
        · rw [wp_of_ret hrun]
          exact hnil
      · rw [wp_of_ret hrun]
        exact hnil
  | none =>
      rcases nfsRefreshInode_run_none hi fattr with ⟨ret, hrun⟩ | hrun
      · rw [wp_of_ret hrun]
        exact hnil
      · rw [wp, hrun]
        exact hnil

/-! ## The functions of the cache -/

namespace CacheOnly

theorem pure {α : Type} (a : α) : Evolves CacheOnly (Pure.pure a : Hs α) := .pure composes a

theorem bind {α β : Type} {x : Hs α} {f : α → Hs β} (hx : Evolves CacheOnly x)
    (hf : ∀ a, Evolves CacheOnly (f a)) : Evolves CacheOnly (x >>= f) := .bind composes hx hf

theorem throw {α : Type} (e : Fault) : Evolves CacheOnly (Act.throw e : Hs α) := .throw composes e

theorem load (p : Addr) : Evolves CacheOnly (load p) := by
  refine .get_bind fun d ↦ ?_
  cases d.heap p with
  | some i => exact pure i
  | none => exact .ite (pure _) (throw _)

theorem update (p : Addr) (f : Inode → Inode) : Evolves CacheOnly (update p f) := by
  refine .get_bind fun d ↦ ?_
  cases d.heap p with
  | some i => exact .modify fun _ ↦ ⟨⟨rfl, rfl, rfl, rfl⟩, rfl, rfl, rfl⟩
  | none => exact .ite (pure ()) (throw _)

theorem errPtr (error : Int) : Evolves CacheOnly (errPtr error) := by
  refine .get_bind fun d ↦ ?_
  cases d.layout.errPtr error with
  | some p => exact pure p
  | none => exact throw _

theorem hashFind (t : Table.Chains hashSize Addr) (key : UInt64) (test : Inode → Bool) :
    Evolves CacheOnly (hashFind t key test) := by
  refine .get_bind fun d ↦ ?_
  cases t.find (hashMin key) (d.stopsAt test) with
  | none => exact pure none
  | some p => exact .ite (bind (throw _) fun _ ↦ pure _) (bind (pure _) fun _ ↦ pure _)

theorem idLoop (rounds : Nat) : Evolves CacheOnly (idLoop rounds) := by
  induction rounds with
  | zero => exact throw _
  | succ rounds ih =>
      refine bind (.modify fun _ ↦ ⟨⟨rfl, rfl, rfl, rfl⟩, rfl, rfl, rfl⟩) fun _ ↦
        .get_bind fun _ ↦ bind (.get_bind fun _ ↦ hashFind _ _ _) fun
        | some _ => ih
        | none => pure ()

theorem allocInode (desc : NfsFindDesc) : Evolves CacheOnly (allocInode desc) :=
  have hmalloc : Evolves CacheOnly (mallocInode desc) :=
    .get_bind fun _ ↦ bind (.ask fun _ _ ↦ ⟨⟨rfl, rfl, rfl, rfl⟩, rfl, rfl, rfl⟩) fun _ ↦ pure _
  have halloc : Evolves CacheOnly (nfsAllocInode desc) := bind hmalloc fun
    | none => pure none
    | some _ => bind (.modify fun _ ↦ ⟨⟨rfl, rfl, rfl, rfl⟩, rfl, rfl, rfl⟩) fun _ ↦ pure _
  bind halloc fun
    | none => pure none
    | some _ => .get_bind fun _ ↦ bind (update _ _) fun _ ↦ pure _

theorem getNewInode (key : UInt64) (set : Inode → Inode) (desc : NfsFindDesc) :
    Evolves CacheOnly (getNewInode key set desc) :=
  bind (allocInode desc) fun
    | none => pure none
    | some _ => bind (update _ _) fun _ ↦
        bind (bind (idLoop _) fun _ ↦ .get_bind fun _ ↦ bind (update _ _) fun _ ↦
          .modify fun _ ↦ ⟨⟨rfl, rfl, rfl, rfl⟩, rfl, rfl, rfl⟩) fun _ ↦
        bind (update _ _) fun _ ↦ pure _

theorem refresh (p : Addr) (fattr : NfsFattr) : Evolves CacheOnly (nfsRefreshInode p fattr) :=
  .ite (bind (load p) fun _ ↦ .ite (bind (update _ _) fun _ ↦ pure _) (pure _)) (pure _)

theorem fhget (fh : NfsFh) (fattr : NfsFattr) : Evolves CacheOnly (hsiNfsFhget fh fattr) :=
  have higet : ∀ key test set desc, Evolves CacheOnly (hsfsIget5Locked key test set desc) :=
    fun _ _ _ _ ↦ bind (.get_bind fun _ ↦ hashFind _ _ _) fun
      | some _ => pure _
      | none => getNewInode _ _ _
  .ite (errPtr _) <| .ite (errPtr _) <| bind (higet _ _ _ _) fun
    | none => errPtr _
    | some _ => bind (load _) fun _ ↦
        .ite (bind (update _ _) fun _ ↦ bind (update _ _) fun _ ↦ pure _)
          (bind (refresh _ _) fun _ ↦ pure _)

theorem iput (p : Addr) : Evolves CacheOnly (hsfsIput p) :=
  .ite (bind (load p) fun _ ↦ bind (update _ _) fun _ ↦
    .ite (bind (load p) fun _ ↦ .ite (.modify fun _ ↦ ⟨⟨rfl, rfl, rfl, rfl⟩, rfl, rfl, rfl⟩)
      (pure _))
      (pure _)) (pure _)

end CacheOnly

/-! ## The functions that call the server -/

namespace ClientsOnly

/-- What is left alone does not depend on the events. -/
theorem events {d d' : Daemon} {es : List Event} (h : ClientsOnly d es d') (es' : List Event) :
    ClientsOnly d es' d' :=
  ⟨⟨h.layout, h.replies, h.touched, h.root⟩, h.heap, h.fhTable, h.idTable, h.currId⟩

theorem ask (c : Call) : Evolves ClientsOnly (Act.ask c : Hs c.Res) :=
  .ask fun _ _ ↦ ⟨⟨rfl, rfl, rfl, rfl⟩, rfl, rfl, rfl, rfl⟩

theorem freeres (clnt : Client) : Evolves ClientsOnly (clntFreeres clnt) :=
  .modify fun _ ↦ ⟨⟨rfl, rfl, rfl, rfl⟩, rfl, rfl, rfl, rfl⟩

end ClientsOnly

section calls

variable {r : Daemon → List Event → Daemon → Prop} (hr : Composes r)

include hr

/-- A relation that is followed by every attempt and every reconnect is followed by a call. -/
theorem evolves_call_of_reconnect {req : Rpc} (hcall : ∀ clnt, Evolves r (clntCall clnt req))
    (hreconnect : ∀ clnt, Evolves r (hsiNfs3ClntReconnect clnt)) (clnt : Client) :
    Evolves r (hsiNfs3ClntCall clnt req) := by
  unfold hsiNfs3ClntCall
  generalize 5 = left
  induction left generalizing clnt with
  | zero =>
      unfold hsiNfs3ClntCallLoop
      exact .bind hr (hcall clnt) fun
        | .done _ => .pure hr _
        | .failed _ => .pure hr _
  | succ left ih =>
      unfold hsiNfs3ClntCallLoop
      exact .bind hr (hcall clnt) fun
        | .done _ => .pure hr _
        | .failed _ => .ite (ih _) <| .ite
            (.bind hr (hreconnect _) fun
              | some _ => ih _
              | none => .pure hr _) (.pure hr _)

variable (hopen : ∀ acl, Evolves r (openclnt acl)) (hping : ∀ clnt, Evolves r (ping clnt))
  (hmodify : ∀ f : Daemon → Daemon, (∀ d, ClientsOnly d [] (f d)) →
    Evolves r (Act.modify f : Hs Unit))

include hopen hping hmodify

/-- A relation that is followed when a client is made. -/
theorem evolves_clntCreate (acl : Bool) : Evolves r (hsiNfs3ClntCreate acl) :=
  have hopenclnt : Evolves r (hsiMntOpenclnt acl) :=
    .bind hr (hopen acl) fun _ ↦ .ite (.get_bind fun _ ↦
      .bind hr (hmodify _ fun _ ↦ ⟨⟨rfl, rfl, rfl, rfl⟩, rfl, rfl, rfl, rfl⟩) fun _ ↦ .pure hr _)
        (.pure hr _)
  .bind hr hopenclnt fun
    | none => .pure hr none
    | some _ => .bind hr (hmodify _ fun _ ↦ ⟨⟨rfl, rfl, rfl, rfl⟩, rfl, rfl, rfl, rfl⟩) fun _ ↦
        .bind hr (hping _) fun _ ↦ .ite (.pure hr _)
          (.bind hr (hmodify _ fun _ ↦ ⟨⟨rfl, rfl, rfl, rfl⟩, rfl, rfl, rfl, rfl⟩) fun _ ↦
            .pure hr _)

/-- A relation that is followed by a reconnect. -/
theorem evolves_reconnect (clnt : Client) : Evolves r (hsiNfs3ClntReconnect clnt) := by
  have hclose (clnt : Client) : Evolves r (hsiMntCloseclnt clnt) :=
    hmodify _ fun _ ↦ ⟨⟨rfl, rfl, rfl, rfl⟩, rfl, rfl, rfl, rfl⟩
  refine .get_bind fun d ↦ .ite ?_ (.ite ?_ (.bind hr (hclose _) fun _ ↦ .throw hr _))
  all_goals
    refine .bind hr (hclose _) fun _ ↦ .bind hr (evolves_clntCreate hr hopen hping hmodify _) fun
      | none => .pure hr _
      | some _ => .bind hr (hmodify _ fun _ ↦ ⟨⟨rfl, rfl, rfl, rfl⟩, rfl, rfl, rfl, rfl⟩) fun _ ↦
          .pure hr _

/-- A relation that is followed by every attempt and every part of a reconnect. -/
theorem evolves_call {req : Rpc} (hcall : ∀ clnt, Evolves r (clntCall clnt req)) (clnt : Client) :
    Evolves r (hsiNfs3ClntCall clnt req) :=
  evolves_call_of_reconnect hr hcall (evolves_reconnect hr hopen hping hmodify) clnt

end calls

namespace ClientsOnly

theorem call (clnt : Client) (req : Rpc) : Evolves ClientsOnly (hsiNfs3ClntCall clnt req) :=
  evolves_call composes (fun _ ↦ ask _) (fun _ ↦ ask _) (fun _ h ↦ .modify h)
    (fun clnt ↦ .bind composes (freeres clnt) fun _ ↦ ask _) clnt

end ClientsOnly

end Hsfs
