import Mathlib.Logic.Relation
/-!
# Runs of a machine

A machine is an initial state and a partial step function.  A run may be restricted by a condition on each step
(`ok`), read at the state before it: what the environment is assumed to do is such a condition, and so is the set of
steps a law is proved for.  `Reach.inv` is the one induction every invariant uses, `Steps.keep` the one every law about
what happens afterwards uses.
-/
namespace Lib

structure Machine (σ α : Type) where
  init : σ
  step : σ → α → Option σ

namespace Machine

variable {σ α : Type}

/-- One step the condition allows. -/
def Next (m : Machine σ α) (ok : σ → α → Prop) (s t : σ) : Prop :=
  ∃ a, ok s a ∧ m.step s a = some t

/-- A run of allowed steps, of any length. -/
def Steps (m : Machine σ α) (ok : σ → α → Prop) : σ → σ → Prop :=
  Relation.ReflTransGen (m.Next ok)

/-- A state an allowed run from the initial one reaches. -/
def Reach (m : Machine σ α) (ok : σ → α → Prop) (s : σ) : Prop :=
  m.Steps ok m.init s

/-- The state a list of steps ends in, if each of them can be taken. -/
def exec (m : Machine σ α) : σ → List α → Option σ
  | s, [] => some s
  | s, a :: l => (m.step s a).bind fun t => m.exec t l

/-- The condition, decided at every step of a list. -/
def allowed (m : Machine σ α) (ok : σ → α → Bool) : σ → List α → Bool
  | _, [] => true
  | s, a :: l => ok s a && (m.step s a).all fun t => m.allowed ok t l

/-- The machine with a history beside it: what is noted at a step changes nothing the machine does. -/
def withHistory {η : Type} (m : Machine σ α) (note : σ → α → η → η) (blank : η) : Machine (σ × η) α where
  init := (m.init, blank)
  step s a := (m.step s.1 a).map fun t => (t, note s.1 a s.2)

variable {m : Machine σ α} {ok ok' : σ → α → Prop}

theorem withHistory_step {η : Type} {note : σ → α → η → η} {blank : η} {s t : σ × η} {a : α}
    (h : (m.withHistory note blank).step s a = some t) : m.step s.1 a = some t.1 ∧ t.2 = note s.1 a s.2 := by
  obtain ⟨u, hu, rfl⟩ := Option.map_eq_some_iff.1 h
  exact ⟨hu, rfl⟩

theorem Steps.refl (s : σ) : m.Steps ok s s := Relation.ReflTransGen.refl

theorem Steps.snoc {s t u : σ} {a : α} (h : m.Steps ok s t) (hok : ok t a) (ha : m.step t a = some u) :
    m.Steps ok s u :=
  Relation.ReflTransGen.tail h ⟨a, hok, ha⟩

theorem Steps.cons {s t u : σ} {a : α} (hok : ok s a) (ha : m.step s a = some t) (h : m.Steps ok t u) :
    m.Steps ok s u :=
  Relation.ReflTransGen.head ⟨a, hok, ha⟩ h

theorem Steps.trans {s t u : σ} (h : m.Steps ok s t) (h' : m.Steps ok t u) : m.Steps ok s u :=
  Relation.ReflTransGen.trans h h'

theorem Steps.mono (hok : ∀ s a, ok s a → ok' s a) {s t : σ} (h : m.Steps ok s t) : m.Steps ok' s t :=
  Relation.ReflTransGen.mono (fun _ _ ⟨a, ha, hs⟩ => ⟨a, hok _ _ ha, hs⟩) _ _ h

theorem Reach.init : m.Reach ok m.init := Steps.refl _

theorem Reach.steps {s t : σ} (h : m.Reach ok s) (h' : m.Steps ok s t) : m.Reach ok t := Steps.trans h h'

theorem Reach.mono (hok : ∀ s a, ok s a → ok' s a) {s : σ} (h : m.Reach ok s) : m.Reach ok' s := Steps.mono hok h

/-- **What holds at the start and is kept by every allowed step holds of every reachable state.** -/
theorem Reach.inv {I : σ → Prop} (h0 : I m.init)
    (hstep : ∀ s a t, m.Reach ok s → I s → ok s a → m.step s a = some t → I t) {s : σ} (h : m.Reach ok s) : I s := by
  have key : m.Reach ok s ∧ I s := by
    induction h with
    | refl => exact ⟨Reach.init, h0⟩
    | tail _ hn ih =>
      obtain ⟨a, hok, ha⟩ := hn
      exact ⟨Steps.snoc ih.1 hok ha, hstep _ a _ ih.1 ih.2 hok ha⟩
  exact key.2

/-- **What every allowed step keeps, a run keeps.** -/
theorem Steps.keep {I : σ → Prop} (hstep : ∀ s a t, I s → ok s a → m.step s a = some t → I t) {s t : σ}
    (h : m.Steps ok s t) (hs : I s) : I t := by
  induction h with
  | refl => exact hs
  | tail _ hn ih =>
    obtain ⟨a, hok, ha⟩ := hn
    exact hstep _ a _ ih hok ha

/-- An executed list is a run, with nothing assumed. -/
theorem Steps.of_exec_any : ∀ {l : List α} {s t : σ}, m.exec s l = some t → m.Steps (fun _ _ => True) s t
  | [], s, t, h => by
    simp only [exec, Option.some.injEq] at h
    exact h ▸ Steps.refl s
  | a :: l, s, t, h => by
    simp only [exec, Option.bind_eq_some_iff] at h
    obtain ⟨u, hu, hut⟩ := h
    exact Steps.cons trivial hu (Steps.of_exec_any hut)

/-- A state found at the end of an executed list is reachable. -/
theorem reach_of_exec {l : List α} {p : σ → Bool} (h : (m.exec m.init l).any p = true) :
    ∃ s, m.exec m.init l = some s ∧ m.Reach (fun _ _ => True) s ∧ p s = true := by
  rw [Option.any_eq_true] at h
  obtain ⟨s, hs, hp⟩ := h
  exact ⟨s, hs, Steps.of_exec_any hs, hp⟩

theorem exec_append : ∀ (l l' : List α) (s : σ), m.exec s (l ++ l') = (m.exec s l).bind fun t => m.exec t l'
  | [], _, _ => rfl
  | a :: l, l', s => by
    simp only [List.cons_append, exec]
    cases m.step s a with
    | none => rfl
    | some u => exact exec_append l l' u

/-- An executed list whose steps all satisfy the condition is a run. -/
theorem Steps.of_exec {okb : σ → α → Bool} (hok : ∀ s a, okb s a = true → ok s a) :
    ∀ {l : List α} {s t : σ}, m.exec s l = some t → m.allowed okb s l = true → m.Steps ok s t
  | [], s, t, h, _ => by
    simp only [exec, Option.some.injEq] at h
    exact h ▸ Steps.refl s
  | a :: l, s, t, h, hal => by
    simp only [exec, Option.bind_eq_some_iff] at h
    obtain ⟨u, hu, hut⟩ := h
    simp only [allowed, hu, Option.all_some, Bool.and_eq_true] at hal
    exact Steps.cons (hok s a hal.1) hu (Steps.of_exec hok hut hal.2)

end Machine
end Lib
