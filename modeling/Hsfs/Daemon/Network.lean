import Hsfs.Daemon.Rpc

/-!
# A server behind a network

A server is given by what it does with a request it has received.  Between it and the daemon
is a network that loses messages: an attempt without a reply may have reached the server or
not.  What a retry then meets is the state after the earlier attempts.

What an operation achieves if all goes well is said with a network that loses nothing, and with
memory that does not run out (`reliable`).
-/

namespace Hsfs

open Interact Interact.Act

variable {σ : Type} {serves : (req : Rpc) → σ → req.Res → σ → Prop}

/-- The environment of a daemon that talks to a server.  Nothing but a request that arrives
changes the server. -/
def network (serves : (req : Rpc) → σ → req.Res → σ → Prop) : Server Call Call.Res σ
  | .clntCall _ req, s, .done res, s' => serves req s res s'
  | .clntCall _ req, s, .failed _, s' => s' = s ∨ ∃ res, serves req s res s'
  | .openclnt _, s, _, s' => s' = s
  | .ping _, s, _, s' => s' = s
  | .mallocInode _ _ _, s, _, s' => s' = s
  | .malloc, s, _, s' => s' = s

/-- A property that the server keeps when it serves a request is kept by the attempts. -/
theorem Attempts.network {req : Rpc} {P : σ → Prop} {Q : req.Res → σ → Prop}
    (hserve : ∀ s res s', P s → serves req s res s' → P s' ∧ Q res s') :
    Attempts (network serves) req P Q where
  done := fun _ s res s' hP hS ↦ (hserve s res s' hP hS).2
  failed := by
    rintro clnt s err s' hP (rfl | ⟨res, hS⟩)
    · exact hP
    · exact (hserve s res s' hP hS).1
  openclnt := fun _ _ _ _ hP hS ↦ hS ▸ hP
  ping := fun _ _ _ _ hP hS ↦ hS ▸ hP

/-! ## Without a call -/

section calm

variable {S : Server Call Call.Res σ} {P : σ → Prop}

theorem keeps_load (p : Addr) : Keeps S P (load p) := by
  refine .get_bind fun d ↦ ?_
  cases d.heap p with
  | some i => exact .pure i
  | none => exact .ite (.pure _) (.throw _)

theorem keeps_update (p : Addr) (f : Inode → Inode) : Keeps S P (update p f) := by
  refine .get_bind fun d ↦ ?_
  cases d.heap p with
  | some i => exact .modify _
  | none => exact .ite (.pure _) (.throw _)

theorem keeps_nfsRefreshInode (p : Addr) (fattr : NfsFattr) : Keeps S P (nfsRefreshInode p fattr) :=
  .ite (.bind (keeps_load p) fun _ ↦ .ite (.bind (keeps_update p _) fun _ ↦ .pure _) (.pure _))
    (.pure _)

end calm

/-! ## A network that loses nothing -/

/-- The environment of a daemon that talks to a server, if every call is answered and there is
memory for everything but inodes. -/
def reliable (serves : (req : Rpc) → σ → req.Res → σ → Prop) : Server Call Call.Res σ
  | .clntCall _ req, s, .done res, s' => serves req s res s'
  | .clntCall _ _, _, .failed _, _ => False
  | .openclnt _, s, _, s' => s' = s
  | .ping _, s, _, s' => s' = s
  | .mallocInode _ _ _, s, _, s' => s' = s
  | .malloc, s, got, s' => got = true ∧ s' = s

section reliable

variable {E : Fault → Daemon → σ → Prop} {d : Daemon} {s : σ}

/-- A call returns what the server answers. -/
theorem wp_call_reliable (clnt : Client) (req : Rpc) :
    wp (reliable serves) (hsiNfs3ClntCall clnt req)
      (fun r d' s' ↦ ∃ res, r = .ok res ∧ d' = d.useClient clnt ∧ serves req s res s') E d s := by
  unfold hsiNfs3ClntCall hsiNfs3ClntCallLoop
  rw [wp_bind]
  refine wp_clntCall ?_
  rintro (res | err) s' hS
  · exact ⟨res, rfl, rfl, hS⟩
  · exact hS.elim

theorem wp_malloc_reliable {Q : Bool → Daemon → σ → Prop} (h : Q true d s) :
    wp (reliable serves) malloc Q E d s := by
  rintro got s' ⟨rfl, rfl⟩
  exact h

end reliable

/-! ## Running a server -/

/-- A server that can be run, behind a network that loses nothing, and an allocator that has a
few places for inodes. -/
def networkAnswer (reply : (req : Rpc) → σ → Option (req.Res × σ)) :
    (c : Call) → σ → Option (c.Res × σ)
  | .clntCall _ req, s => (reply req s).map fun r ↦ (.done r.1, r.2)
  | .openclnt _, s => some (true, s)
  | .ping _, s => some (true, s)
  | .mallocInode _ _ avoid, s => some (FreeAddr.first avoid [0x10000, 0x20000, 0x30000], s)
  | .malloc, s => some (true, s)

theorem reliable_of_answer {reply : (req : Rpc) → σ → Option (req.Res × σ)}
    (h : ∀ req s res s', reply req s = some (res, s') → serves req s res s') (c : Call) (s : σ)
    (r : c.Res) (s' : σ) (hr : networkAnswer reply c s = some (r, s')) :
    reliable serves c s r s' := by
  cases c with
  | clntCall clnt req =>
      obtain ⟨⟨res, t⟩, hres, heq⟩ := Option.map_eq_some_iff.1 hr
      cases heq
      exact h req s res _ hres
  | malloc =>
      cases hr
      exact ⟨rfl, rfl⟩
  | openclnt acl | ping clnt | mallocInode fileid fh avoid =>
      cases hr
      rfl

/-- A network that loses nothing is a network. -/
theorem network_of_reliable {c : Call} {s : σ} {r : c.Res} {s' : σ} (h : reliable serves c s r s') :
    network serves c s r s' := by
  cases c with
  | clntCall clnt req =>
      cases r with
      | done res => exact h
      | failed err => exact h.elim
  | malloc => exact h.2
  | openclnt acl | ping clnt | mallocInode fileid fh avoid => exact h

theorem network_of_answer {reply : (req : Rpc) → σ → Option (req.Res × σ)}
    (h : ∀ req s res s', reply req s = some (res, s') → serves req s res s') (c : Call) (s : σ)
    (r : c.Res) (s' : σ) (hr : networkAnswer reply c s = some (r, s')) :
    network serves c s r s' :=
  network_of_reliable (reliable_of_answer h c s r s' hr)

end Hsfs
