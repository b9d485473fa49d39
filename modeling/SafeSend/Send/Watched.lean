import SafeSend.Send.Dispatch
/-!
# The evidence along a run

Every live process pays what it owes and disturbs no other's sends: two that hold jobs of one send hold one job, and one
process holds it.  A sweep that has lost its transaction holds nothing, and pays all the same.  So the evidence stands in
every state of a run that reclaims only from the dead.
-/
namespace SafeSend
namespace Send

open Lib
open Lib.Prog (Safe Uses)
open Queue (ClaimedJob Recovery)

/-- The sends a process holds: those its jobs are for. -/
def Proc.scope (p : Proc) (sid : Nat) : Prop := ∃ job ∈ p.held true, job.kind = .send ∧ job.refId = sid

/-- The sends whose dispatch is the process's. -/
def Proc.holds : Proc → Nat → Prop
  | .exec job _ _ _, sid => job.kind = .send ∧ job.refId = sid
  | _, _ => False

/-- The sends a process may write to: a sweep that has lost its transaction goes on whoever holds the send by then. -/
def Proc.writes : Proc → Nat → Prop
  | .adrift _, _ => True
  | p, sid => p.scope sid

def Proc.Watched (settings : Settings) (A : Assumed) (w : Store) (p : Proc) : Prop :=
  match p with
  | .exec _ _ _ body => Safe (holding settings A p.holds p.writes) (fun _ _ => True) body w
  | .sweep _ _ body | .adrift body => Safe (holding settings A p.holds p.writes) (fun _ _ => True) body w
  | .request body => Uses (fun o => o.api = true) body

structure Watched (settings : Settings) (A : Assumed) (w : World) : Prop where
  coherent : Coherent settings w
  held : Held true w
  store : Evident A w.store
  procs : ∀ pid p, w.procs.get pid = some p → p.Watched settings A w.store

/-- An `operator_retry` write finds no delivered send without a dispatch time. -/
def retriesSeen (w : World) : Action → Bool
  | .step pid _ => match w.nextOp pid with
    | some (.operatorRetryWrite id _ _) =>
      (w.store.sends.get id).all fun r => r.state != .delivered || r.dispatchedAt.isSome
    | _ => true
  | _ => true

/-- No write of a sweep that has lost its transaction moves a send in flight of which an execution is under way. -/
def leavesUnderWay (w : World) : Action → Bool
  | .step pid _ => match w.procs.get pid with
    | some (.adrift (.op (.write sid u) _)) =>
      !(w.underWay sid && u.moves && u.storable && w.store.sends.affected sid u.guard)
    | _ => true
  | _ => true

/-- The answers of a step are those assumed, a sweep reclaims only from the dead, and what is written late or over what was
read does not hide a dispatch. -/
structure Allowed (A : Assumed) (w : World) (a : Action) : Prop where
  reclaims : reclaimsDead w a = true
  seen : A.sound = true → retriesSeen w a = true
  leaves : A.registry.isSome = true → leavesUnderWay w a = true
  answers : ∀ pid e, a = .step pid e → ∀ o, w.nextOp pid = some o → A.Answers w.store o e

variable {settings : Settings} {A : Assumed} {w t : World}

theorem Proc.Next.holds {p p' : Proc} {o : Op} {x : o.Ans} (h : p.Next o x p') : p'.holds = p.holds := by
  cases h <;> rfl

theorem Proc.Next.writes {p p' : Proc} {o : Op} {x : o.Ans} (h : p.Next o x p') : p'.writes = p.writes := by
  cases h <;> rfl

/-- **One process holds a send.** -/
theorem scope_disjoint (hw : WellFormed w.store) (hh : Held true w) {pid pid' : Nat} {p p' : Proc} {sid : Nat}
    (hp : w.procs.get pid = some p) (hp' : w.procs.get pid' = some p') (hs : p.scope sid) (hs' : p'.scope sid) :
    pid = pid' := by
  obtain ⟨job, hjob, hk, hid⟩ := hs
  obtain ⟨job', hjob', hk', hid'⟩ := hs'
  obtain ⟨j, hj, hr, he⟩ := hh.runs pid p hp job hjob
  obtain ⟨j', hj', hr', he'⟩ := hh.runs pid' p' hp' job' hjob'
  -- Both rows run in the send's partition, where one row runs.
  have hkj : j.kind = .send := by rw [he] at hk; exact hk
  have hkj' : j'.kind = .send := by rw [he'] at hk'; exact hk'
  have href : j.refId = sid := by rw [he] at hid; exact hid
  have href' : j'.refId = sid := by rw [he'] at hid'; exact hid'
  obtain ⟨r, hrow, hpart⟩ := hw.work _ j hj hkj
  obtain ⟨r', hrow', hpart'⟩ := hw.work _ j' hj' hkj'
  rw [href] at hrow
  rw [href', hrow] at hrow'
  obtain rfl := Option.some.inj hrow'
  exact hh.apart pid pid' p p' hp hp' job hjob job' hjob' (hw.exclusive _ _ j j' _ hj hj' hr hr' hpart hpart')

theorem Proc.scope_of_holds {p : Proc} {sid : Nat} (h : p.holds sid) : p.scope sid := by
  cases p with
  | exec job worker began body => exact ⟨job, List.mem_singleton.2 rfl, h⟩
  | _ => exact False.elim h

/-- **Who pays what it owes disturbs no one**, where what it writes moves no send of `holds'`. -/
theorem undisturbed_of_owes {w w' : Store} {o : Op} {holds writes holds' : Nat → Prop} (hw : WellFormed w)
    (howes : Owes A holds writes w o) (hd : Did settings w o w') (hdisj : ∀ sid, holds sid → ¬ holds' sid)
    (hleaves : A.registry.isSome = true → ∀ sid u, holds' sid → o = .write sid u → u.moves = true →
      w.sends.affected sid u.guard = false) :
    Undisturbed A holds' w w' where
  calls := hd.calls_keep
  rows sid r hr := by
    obtain ⟨r', hr', hk⟩ := hd.rowKept howes hr
    refine ⟨r', hr', hk, fun hs =>
      hd.rowAlone hr hr' (fun u ho => ?_) (fun hreg u ho hg => ?_) fun provider request ho hkey => ?_⟩
    · subst ho
      exact Bool.eq_false_iff.2 fun hown => hdisj sid (howes.2.1 hown) hs
    · refine Bool.eq_false_iff.2 fun hmoves => ?_
      have hnone := hleaves hreg sid u hs ho hmoves
      rw [Table.affected_iff.2 ⟨r, hr, hg⟩] at hnone
      cases hnone
    · subst ho
      obtain ⟨sid₀, r₀, hs₀, hr₀, hdis⟩ := howes
      obtain rfl := hw.key_inj hr hr₀ (hkey.symm.trans hdis.key)
      exact hdisj _ hs₀ hs

/-- An execution whose handler has ended. -/
def Proc.ended : Proc → Bool
  | .exec _ _ _ (.ret _) => true
  | _ => false

/-- What the others do leaves a process watched; one that has ended keeps everything. -/
theorem Proc.Watched.undisturbed {w w' : Store} {p : Proc} (h : p.Watched settings A w)
    (hu : p.ended = false → Undisturbed A p.holds w w') : p.Watched settings A w' := by
  cases p with
  | exec job worker began body =>
    cases body with
    | ret r => exact Safe.done
    | op o k => exact Safe.rely (c := holding settings A _ _) h (hu rfl)
  | sweep | adrift => exact Safe.rely (c := holding settings A _ _) h (hu rfl)
  | request => exact h

/-- What a watched process's next operation does. -/
theorem Proc.Watched.next {w w' : Store} {p p' : Proc} {o : Op} {x : o.Ans} {e : Env} (h : p.Watched settings A w)
    (hi : Evident A w) (hok : A.Answers w o e)
    (hseen : A.sound = true → ∀ id userId partition, o = .operatorRetryWrite id userId partition → ∀ r,
      w.sends.get id = some r → r.state = .delivered → r.dispatchedAt.isSome)
    (hn : p.Next o x p') (hs : sem settings o e w = some (x, w')) :
    Owes A p.holds p.writes w o ∧ p'.Watched settings A w' := by
  cases hn with
  | exec | sweep | adrift =>
    obtain ⟨-, howes, hk⟩ := Safe.answer (c := holding settings A _ _) h hi hok hs
    exact ⟨howes, hk⟩
  | request =>
    obtain ⟨ho, hk⟩ := Uses.op_iff.1 h
    refine ⟨?_, hk _⟩
    cases o <;> first | trivial | cases ho; done | skip
    case operatorRetryWrite => exact fun ha => hseen ha _ _ _ rfl

theorem Undisturbed.of_same {holds : Nat → Prop} {w w' : Store} (hs : w'.sends = w.sends) (hf : w'.forced = w.forced)
    (hlive : ∀ fp, w'.live fp ⊆ w.live fp)
    (hc : ∀ n c, w.calls.get n = some c → ∃ c', w'.calls.get n = some c' ∧ c'.provider = c.provider ∧ c'.request = c.request) :
    Undisturbed A holds w w' where
  rows sid r hr := ⟨r, by rw [hs]; exact hr, by rw [hf]; exact .refl _ _ _, fun _ =>
    ⟨hlive _, id, fun _ hst => ⟨hst, rfl, rfl⟩⟩⟩
  calls := hc

theorem undisturbed_outside {holds : Nat → Prop} {w w' : Store} {a : Action} (h : w.outside settings a = some w') :
    Undisturbed A holds w w' := by
  cases a <;> simp only [Store.outside, Option.some.injEq, reduceCtorEq] at h <;> subst h
  case settle call ok =>
    refine Undisturbed.of_same rfl rfl (live_settle w call ok) fun n c hc => ?_
    unfold Store.settleCall
    rcases w.calls.get_updateWhere_cases call (fun c => c.status == .pending)
      (fun c => { c with status := if ok then .accepted else .dropped }) n with he | ⟨-, c₀, hc₀, -, he⟩
    · exact ⟨c, he.trans hc, rfl, rfl⟩
    · obtain rfl := Option.some.inj (hc.symm.trans hc₀)
      exact ⟨_, he, rfl, rfl⟩
  all_goals exact Undisturbed.of_same rfl rfl (fun _ => Finset.Subset.refl _) fun _ c hc => ⟨c, hc, rfl, rfl⟩

theorem undisturbed_jobs {holds : Nat → Prop} (w : Store) (jobs : Queue.Jobs) :
    Undisturbed A holds w { w with jobs := jobs } :=
  .of_same rfl rfl (fun _ => Finset.Subset.refl _) fun _ c hc => ⟨c, hc, rfl, rfl⟩

theorem watched_without {pid : Nat} {jobs : Queue.Jobs} (hc : Coherent settings (w.without pid jobs))
    (hh : Held true (w.without pid jobs)) (h : Watched settings A w) : Watched settings A (w.without pid jobs) where
  coherent := hc
  held := hh
  store := h.store.withJobs hc.store
  procs n p hp := by
    by_cases hn : n = pid
    · subst hn
      simp only [World.without, Table.get_erase_self, reduceCtorEq] at hp
    · simp only [World.without, Table.get_erase_of_ne _ hn] at hp
      exact (h.procs n p hp).undisturbed fun _ => undisturbed_jobs _ _

/-- What a process that is owed for does leaves the others' sends alone. -/
theorem Watched.undisturbed {pid pid' : Nat} {p p' q : Proc} {o : Op} {x : o.Ans} {e : Env} {store : Store}
    (h : Watched settings A w) (hok : Allowed A w (.step pid e)) (hp : w.procs.get pid = some p) (hn : p.Next o x p')
    (hs : sem settings o e w.store = some (x, store)) (howes : Owes A p.holds p.writes w.store o) (hne : pid' ≠ pid)
    (hq : w.procs.get pid' = some q) (hlive : q.ended = false) :
    Undisturbed A q.holds w.store store := by
  have hdisj {sid : Nat} (hheld : q.holds sid) : ¬ p.scope sid := fun hs' =>
    hne (scope_disjoint h.store.wf h.held hq hp (Proc.scope_of_holds hheld) hs')
  refine undisturbed_of_owes h.store.wf howes (did_of_sem hs) (fun sid hs hs' => hdisj hs' (Proc.scope_of_holds hs))
    fun hreg sid u hheld ho hmoves => ?_
  subst ho
  cases hn with
  | exec | sweep => exact absurd howes.1 (hdisj hheld)
  | request => exact absurd howes.1 (hdisj hheld)
  | adrift o k x =>
    -- A late write: an execution of the send is under way, which it leaves.
    cases q with
    | exec job worker began body =>
      cases body with
      | ret r => cases hlive
      | op o' k' =>
        have hleaves := hok.leaves hreg
        have hway : w.underWay sid = true := hheld.2 ▸ World.underWay_of_exec hq hheld.1
        simpa [leavesUnderWay, hp, hway, hmoves, storable_of_sem hs] using hleaves
    | _ => exact False.elim hheld

theorem Watched.moved {a : Action} (h : Watched settings A w) (hok : Allowed A w a) (hm : Moved settings w a t) :
    Watched settings A t := by
  have hc := h.coherent.moved hm
  have hh := h.held.moved (fun _ => hok.reclaims) hm
  cases hm with
  | outside _ store hout =>
    exact ⟨hc, hh, h.store.outside hout, fun pid p hp => (h.procs pid p hp).undisturbed fun _ => undisturbed_outside hout⟩
  | called r =>
    refine ⟨hc, hh, h.store, fun pid p hp => ?_⟩
    rcases Table.get_insert_cases hp with ⟨-, rfl⟩ | ⟨-, hp⟩
    · exact api_request r
    · exact h.procs pid p hp
  | claimed worker limit locked =>
    refine ⟨hc, hh, h.store.withJobs hc.store, fun pid p hp => ?_⟩
    rcases spawn_get hp with hp | ⟨job, -, rfl⟩
    · exact (h.procs pid p hp).undisturbed fun _ => undisturbed_jobs _ _
    · exact safe_handler job fun hk => ⟨⟨hk, rfl⟩, job, List.mem_singleton.2 rfl, hk, rfl⟩
  | swept limit locked hidle stale hstale =>
    refine ⟨hc, hh, h.store, fun pid p hp => ?_⟩
    rcases Table.get_insert_cases hp with ⟨-, rfl⟩ | ⟨-, hp⟩
    · refine sweepJobs_safe (fun id u => safe_gentle_single (o := .recoverRow id) trivial) stale _ fun job hjob hk u => ?_
      have hwrites : (Proc.sweep stale w.store.now (sweepJobs stale)).writes job.refId := ⟨job, hjob, hk, rfl⟩
      exact Safe.mono (fun _ _ _ _ => trivial) (safe_reconcileSend hwrites (Prog.Stable.true _) "" trivial)
    · exact h.procs pid p hp
  | @ran pid e p p' o x store hp hn hs =>
    have hop := nextOp_of_next hp hn
    have hseen : A.sound = true → ∀ id userId partition, o = .operatorRetryWrite id userId partition → ∀ r,
        w.store.sends.get id = some r → r.state = .delivered → r.dispatchedAt.isSome := by
      intro ha id userId partition ho r hr hst
      subst ho
      simpa [retriesSeen, hop, hr, hst] using hok.seen ha
    obtain ⟨howes, hp'⟩ := (h.procs pid p hp).next h.store (hok.answers pid e rfl _ hop) hseen hn hs
    have hfits := ((h.coherent.procs pid p hp).next hn hs).1
    refine ⟨hc, hh, h.store.did hfits howes (did_of_sem hs), fun pid' q hq => ?_⟩
    simp only [World.withProc] at hq
    rcases Table.get_modify_cases hq with ⟨rfl, _, -, rfl⟩ | ⟨hne, hq⟩
    · exact hp'
    · exact (h.procs pid' q hq).undisturbed (h.undisturbed hok hp hn hs howes hne hq)
  | raised pid hp =>
    refine ⟨hc, hh, h.store, fun pid' q hq => ?_⟩
    simp only [World.raised, World.withProc] at hq
    rcases Table.get_modify_cases hq with ⟨rfl, _, -, rfl⟩ | ⟨-, hq⟩
    · exact Safe.done
    · exact h.procs pid' q hq
  | lost pid hp =>
    refine ⟨hc, hh, h.store, fun pid' q hq => ?_⟩
    simp only [World.withProc] at hq
    rcases Table.get_modify_cases hq with ⟨rfl, _, -, rfl⟩ | ⟨-, hq⟩
    · -- What it goes on with, it has promised already.
      exact Safe.promise (c := holding settings A (fun _ => False) _)
        (fun _ _ _ ho => Owes.mono (fun _ _ => trivial) ho) (h.procs pid' _ hp)
    · exact h.procs pid' q hq
  | executed | recovered | answered | crashed | aborted => exact watched_without hc hh h

theorem evident_empty (A : Assumed) : Evident A {} :=
  ⟨wellFormed_empty, fun _ _ hc => (nomatch hc), fun _ _ hr => (nomatch hr)⟩

/-- **The evidence stands in every state of an allowed run.** -/
theorem reach_watched {ok : World → Action → Prop}
    (hok : ∀ w a, (system settings).Reach ok w → Watched settings A w → ok w a → Allowed A w a)
    (h : (system settings).Reach ok w) : Watched settings A w :=
  have h0 : (system settings).Reach (fun _ _ => False) (system settings).init := Machine.Reach.init
  Machine.Reach.inv ⟨reach_coherent h0, reach_held (fun _ _ _ => False.elim) h0, evident_empty A, fun _ _ hp => nomatch hp⟩
    (fun w a _ hr hi ha hs => hi.moved (hok w a hr hi ha) (moved_of_step hs)) h

end Send
end SafeSend
