import Hsfs.Fuse.Handlers
import Hsfs.Interact.Ends
import Hsfs.Nfs3.Quiet

/-!
# Sessions

A session is the life of the daemon: a mount that succeeds, and then requests, one after the
other, each of which is handled to the end.  The server and the memory allocator may answer
in any way, and the answers are part of the session.
-/

namespace Hsfs

open Interact Interact.Act Daemon

/-- The state of a daemon after a successful mount. -/
def Daemon.Mounted (d : Daemon) : Prop :=
  ∃ l o fh es, Prog.Exec Server.record ((hsiFillSuper fh).run (.start l o)) [] (.ok 0, d) es

/-- **A mount moves the daemon along any relation that the operations move it along.**  At the start
the tables are empty, and initialising them changes nothing. -/
theorem ObjectFrame.mount {r : Daemon → List Event → Daemon → Prop}
    (hr : ObjectFrame (Evolves r) fun _ ↦ True) (hroot : ∀ root, Evolves r
      (Act.modify (fun d ↦ { d with sb := { d.sb with root := root } }) : Hs Unit))
    {l : Layout} {o : MountOpts} {fh : NfsFh} {es : List Event} {out : Except Fault Int}
    {d : Daemon}
    (hx : Prog.Exec Server.record ((hsiFillSuper fh).run (.start l o)) [] (out, d) es) :
    r (.start l o) es d := by
  have hends : Ends (fun es _ d' ↦ r (.start l o) es d') (fun es _ d' ↦ r (.start l o) es d')
      (hsiFillSuper fh) (.start l o) := by
    unfold hsiFillSuper
    refine .ret_bind rfl (.ret_bind rfl (Ends.of_evolves ?_ (Daemon.start l o)))
    exact hr.bind (hr.fsinfo fh _) fun _ ↦ .ite (hr.pure _) <| hr.bind (hr.fhget _ _) fun _ ↦
      .ite (.get_bind fun _ ↦ hr.pure _) <| hr.bind (hroot _) fun _ ↦
        hr.bind (hr.load _) fun _ ↦ hr.bind (hr.assertThat _ _) fun _ ↦ hr.pathconf _
  cases out with
  | ok ret => exact hends.exec_ok hx
  | error e => exact hends.exec_error hx

/-- **A mount fills an empty cache.** -/
theorem Daemon.Mounted.extends_start {d : Daemon} (h : d.Mounted) :
    d.CacheOk ∧ ∃ l o, (Daemon.start l o).Extends d := by
  obtain ⟨l, o, fh, es, hx⟩ := h
  have hgrows := HandleFrame.grows.mount
    (fun _ ↦ .modify fun _ h ↦ ⟨h.congr rfl rfl rfl rfl, .of_eq rfl rfl rfl⟩) hx
  obtain ⟨hd, hext⟩ := hgrows (FhgetRun.booted_start l o).cacheOk
  exact ⟨hd, l, o, hext⟩

/-- The root is cached under number one. -/
structure Daemon.RootOk (d : Daemon) : Prop where
  mem : d.sb.root ∈ d.sb.idTable
  ino : ∀ i, d.heap d.sb.root = some i → i.ino = 1

/-- The root stays where it is while the cache grows. -/
theorem Daemon.RootOk.of_extends {d d' : Daemon} (h : d.RootOk) (hd : d.CacheOk)
    (hext : d.Extends d') (hroot : d'.sb.root = d.sb.root) : d'.RootOk where
  mem := hroot ▸ hext.mem _ h.mem
  ino := by
    intro i' hi'
    obtain ⟨i, hi⟩ := hd.live _ h.mem
    obtain ⟨j, hj, hsame, -⟩ := hext.keep _ i hi
    rw [hroot, hj] at hi'
    obtain rfl := Option.some.inj hi'
    exact hsame.ino.trans (h.ino i hi)

/-- The root can be read after `hsi_nfs_fhget`, also if it is an error pointer; but then it does not
have number one. -/
theorem Daemon.Fhget.exists_load {d d' : Daemon} {fh : NfsFh} {fattr : NfsFattr} {root : Addr}
    (h : d.Fhget fh fattr root d') (hd : d.CacheOk) :
    ∃ i, (load root).run { d' with sb := { d'.sb with root := root } } =
        .ret (.ok i, { d' with sb := { d'.sb with root := root } }) ∧
      (i.ino = 1 → root ∈ d'.sb.idTable ∧ d'.heap root = some i) := by
  rcases h.holds with hbad | ⟨hmem, i, hi, -, -⟩
  · have hnear : d'.layout.nearBad root = true := by rw [h.extends_.layout, hbad.nearBad]
    have hnone : d'.heap root = none := by
      by_contra hne
      obtain ⟨j, hj⟩ := Option.ne_none_iff_exists'.1 hne
      have hfar := (h.cacheOk hd).not_nearBad hj
      rw [hnear] at hfar
      exact nomatch hfar
    exact ⟨Inode.zero, by simp [load, hnone, hnear], fun hone ↦ absurd hone (by decide)⟩
  · exact ⟨i, load_run (d := { d' with sb := { d'.sb with root := root } }) hi, fun _ ↦ ⟨hmem, hi⟩⟩

/-- **A mount leaves the root in the cache.** -/
theorem Daemon.Mounted.rootOk {d : Daemon} (h : d.Mounted) : d.RootOk := by
  obtain ⟨l, o, fh, es, hx⟩ := h
  have hr := HandleFrame.grows
  have hs := HandleFrame.silent
  have hwp : wp Server.record (hsiFillSuper fh) (fun r d' _ ↦ r = 0 → d'.RootOk)
      (fun _ _ _ ↦ True) (.start l o) [] := by
    unfold hsiFillSuper
    rw [wp_bind, wp_of_ret
      (show hsfsInitIcache.run (.start l o) = .ret (.ok (), .start l o) from rfl), wp_bind,
        wp_of_ret (show (Act.modify _ : Hs Unit).run (.start l o) = .ret (.ok (), .start l o)
        from rfl), wp_bind]
    refine wp_mono ?_ (fun _ _ _ _ ↦ trivial) (hr.fsinfo fh NfsFattr.fresh _ _)
    rintro ⟨ret, fattr⟩ d₁ _ ⟨es₁, rfl, hgrows⟩
    obtain ⟨hd₁, -⟩ := hgrows (FhgetRun.booted_start l o).cacheOk
    rw [wp_ite]
    split
    · next hret => exact fun h ↦ absurd h hret
    rw [wp_bind]
    refine wp_mono ?_ (fun _ _ _ h ↦ h.elim) (hd₁.wp_hsiNfsFhget)
    intro root d₂ tr hfh
    have hd₃ : ({ d₂ with sb := { d₂.sb with root := root } } : Daemon).CacheOk :=
      (hfh.cacheOk hd₁).congr rfl rfl rfl rfl
    obtain ⟨i, hload, hcached⟩ := hfh.exists_load hd₁
    rw [if_neg (by rw [hfh.isErr_eq_false hd₁]; decide), wp_bind, wp_modify, wp_bind,
      wp_of_ret hload]
    by_cases hone : i.ino = 1
    · obtain ⟨hmem, hi⟩ := hcached hone
      have hroot : ({ d₂ with sb := { d₂.sb with root := root } } : Daemon).RootOk := by
        refine ⟨hmem, fun j hj ↦ ?_⟩
        obtain rfl := Option.some.inj (hi.symm.trans hj)
        exact hone
      rw [hone]
      refine wp_mono ?_ (fun _ _ _ _ ↦ trivial)
        ((hr.pathconf root).and (hs.pathconf root) _ _)
      rintro _ d₄ _ ⟨_, -, hgrows, hsilent⟩ -
      exact hroot.of_extends hd₃ (hgrows hd₃).2 hsilent.root
    · have hassert : assertThat .rootIno (i.ino == 1) = Act.throw (.abort .rootIno) := by
        simp [assertThat, hone]
      rw [hassert]
      trivial
  exact (wp_iff_exec.1 hwp).1 _ _ _ hx rfl

/-- A request has been handled to the end: the daemon before, the calls that were made with
their answers, and the daemon after. -/
def Request.Handled (req : Request) (d : Daemon) (es : List Event) (d' : Daemon) : Prop :=
  ∃ rounds, Prog.Exec Server.record ((req.handle rounds).run d) [] (.ok (), d') es

/-- A request that has been handled, in the middle of a session. -/
structure Step where
  before : Daemon
  req : Request
  events : List Event
  after : Daemon

/-- The answers given in a step. -/
def Step.replies (s : Step) : List Reply := s.after.replies.drop s.before.replies.length

/-- A session: the steps so far, the latest first, and the daemon they have led to.  Each step meets
a condition, which may look at the steps before it. -/
inductive Session (ok : List Step → Step → Prop) : List Step → Daemon → Prop
  | mounted {d : Daemon} (hd : d.Mounted) : Session ok [] d
  | step {steps : List Step} {s : Step} (hprev : Session ok steps s.before)
      (hs : s.req.Handled s.before s.events s.after) (hok : ok steps s) :
      Session ok (s :: steps) s.after

/-- A weaker condition. -/
theorem Session.mono {ok ok' : List Step → Step → Prop} (h : ∀ steps s, ok steps s → ok' steps s)
    {steps : List Step} {d : Daemon} (hs : Session ok steps d) : Session ok' steps d := by
  induction hs with
  | mounted hd => exact .mounted hd
  | step _ hs hok ih => exact .step ih hs (h _ _ hok)

/-! ## Playing a session -/

/-- Mount with the answers of a table. -/
def playMount (g : (c : Call) → Option c.Res) (l : Layout) (o : MountOpts) (fh : NfsFh) :
    Option Daemon :=
  match ((hsiFillSuper fh).run (.start l o)).eval (Prog.recorded g) [] with
  | some ((.ok 0, d), _) => some d
  | _ => none

theorem mounted_of_play {g : (c : Call) → Option c.Res} {l : Layout} {o : MountOpts} {fh : NfsFh}
    {d : Daemon} (h : playMount g l o fh = some d) : d.Mounted := by
  unfold playMount at h
  split at h
  · next es heval =>
      cases h
      exact ⟨l, o, fh, es, Prog.exec_record_of_eval heval⟩
  · exact nomatch h

/-- Handle a request with the answers of a table. -/
def Request.play (g : (c : Call) → Option c.Res) (rounds : Nat) (req : Request) (d : Daemon) :
    Option (List Event × Daemon) :=
  match ((req.handle rounds).run d).eval (Prog.recorded g) [] with
  | some ((.ok (), d'), es) => some (es, d')
  | _ => none

theorem Request.handled_of_play {g : (c : Call) → Option c.Res} {rounds : Nat} {req : Request}
    {d d' : Daemon} {es : List Event} (h : req.play g rounds d = some (es, d')) :
    req.Handled d es d' := by
  unfold Request.play at h
  split at h
  · next heval =>
      cases h
      exact ⟨rounds, Prog.exec_record_of_eval heval⟩
  · exact nomatch h

/-- Handle some requests with the answers of a table, as long as a condition is met. -/
def playSession (ok : List Step → Step → Bool) (g : (c : Call) → Option c.Res) (rounds : Nat) :
    List Request → List Step → Daemon → Option (List Step × Daemon)
  | [], steps, d => some (steps, d)
  | req :: reqs, steps, d =>
      match req.play g rounds d with
      | none => none
      | some (es, d') =>
          if ok steps ⟨d, req, es, d'⟩ then
            playSession ok g rounds reqs (⟨d, req, es, d'⟩ :: steps) d'
          else none

theorem Session.of_play {ok : List Step → Step → Bool} {g : (c : Call) → Option c.Res}
    {rounds : Nat} {reqs : List Request} {steps steps' : List Step} {d d' : Daemon}
    (h : Session (fun steps s ↦ ok steps s = true) steps d)
    (hplay : playSession ok g rounds reqs steps d = some (steps', d')) :
    Session (fun steps s ↦ ok steps s = true) steps' d' := by
  induction reqs generalizing steps d with
  | nil =>
      cases hplay
      exact h
  | cons req reqs ih =>
      unfold playSession at hplay
      split at hplay
      · exact nomatch hplay
      · next es d₁ hreq =>
          split at hplay
          · next hok =>
              exact ih (.step (s := ⟨d, req, es, d₁⟩) h (Request.handled_of_play hreq) hok) hplay
          · exact nomatch hplay

/-! ## A small server -/

/-- Attributes of a directory. -/
def sampleDir (fileid : UInt64) : Fattr3 :=
  { (default : Fattr3) with type := 2, mode := 0o755, nlink := 2, fileid := fileid }

/-- Attributes of an empty file. -/
def sampleFile (fileid : UInt64) : Fattr3 :=
  { (default : Fattr3) with type := 1, mode := 0o644, nlink := 1, fileid := fileid }

/-- The handle of the directory that is mounted. -/
def sampleRoot : NfsFh := NfsFh.ofByte 1

/-- A server with one file in the directory that is mounted, found under any name, and an
allocator that has a few places for inodes. -/
def sampleAnswer : (c : Call) → Option c.Res
  | .clntCall _ req => match req with
    | .fsinfo _ => some (.done (.ok ⟨some (sampleDir 1), 65536, 65536, 4096, 65536, 65536, 4096,
        4096, 0, ⟨0, 1⟩, 0x1b⟩))
    | .pathconf _ => some (.done (.ok 255))
    | .getattr _ => some (.done (.ok (sampleFile 2)))
    | .lookup _ _ => some (.done (.ok ⟨NfsFh.ofByte 2, some (sampleFile 2)⟩))
    | .link _ _ _ => some (.done (.ok (some (sampleFile 2))))
    | .access _ _ => some (.done (.ok 0))
    | _ => none
  | .mallocInode _ _ avoid => some (FreeAddr.first avoid [0x10000, 0x20000, 0x30000])
  | .malloc => some true
  | .openclnt _ => some true
  | .ping _ => some true

/-- A server that answers `CREATE` with the one file it has. -/
def createAnswer : (c : Call) → Option c.Res
  | .clntCall _ (.create _ _ _) => some (.done (.ok ⟨some (NfsFh.ofByte 2), some (sampleFile 2)⟩))
  | c => sampleAnswer c

/-- The daemon after a mount from that server. -/
def sampleMount : Option Daemon := playMount sampleAnswer .sample .sample sampleRoot

/-- A piece of code, run after that mount in an environment with a state.  It is returned with the
daemon before it and the inode of the root. -/
def playAtRoot {σ α : Type} (g : (c : Call) → σ → Option (c.Res × σ)) (x : Hs α) (s : σ) :
    Option (Daemon × Addr × Inode × (Except Fault α × Daemon) × σ) :=
  sampleMount.bind fun d ↦ (d.ilookup 1).bind fun p ↦ (d.heap p).bind fun i ↦
    ((x.run d).eval g s).map fun r ↦ (d, p, i, r)

theorem of_playAtRoot {σ α : Type} {g : (c : Call) → σ → Option (c.Res × σ)} {x : Hs α} {s s' : σ}
    {d : Daemon} {p : Addr} {i : Inode} {r : Except Fault α × Daemon}
    (h : playAtRoot g x s = some (d, p, i, r, s')) :
    d.ilookup 1 = some p ∧ d.heap p = some i ∧ (x.run d).eval g s = some (r, s') := by
  obtain ⟨d₀, -, hplay⟩ := Option.bind_eq_some_iff.1 h
  obtain ⟨p₀, hp₀, hplay⟩ := Option.bind_eq_some_iff.1 hplay
  obtain ⟨i₀, hi₀, hplay⟩ := Option.bind_eq_some_iff.1 hplay
  obtain ⟨r₀, heval, heq⟩ := Option.map_eq_some_iff.1 hplay
  cases heq
  exact ⟨hp₀, hi₀, heval⟩

end Hsfs
