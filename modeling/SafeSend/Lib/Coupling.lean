import Mathlib.Tactic.Common
/-!
# Transactions run twice

A transaction reads and writes a state, and a refusal rolls its writes back.  A `Coupling` says what two states have in
common and what a transaction may do to either of them; `Both` is the judgement that two transactions, each run from
one of two such states, answer alike and leave two such states.  A session runs one transaction for each request, and
`session_both` is the one induction every law about two sessions uses.
-/
namespace Lib

abbrev Tx (σ ε α : Type) := StateT σ (Except ε) α

namespace Tx

variable {σ ε α β ρ : Type}

def read (f : σ → α) : Tx σ ε α := fun s => .ok (f s, s)

def write (f : σ → σ) : Tx σ ε Unit := fun s => .ok ((), f s)

def refuse (e : ε) : Tx σ ε α := fun _ => .error e

/-- The answer and the state that is left: the one from before, where the transaction is refused. -/
def commit (p : Tx σ ε α) (s : σ) : Except ε α × σ :=
  match p s with
  | .ok (x, t) => (.ok x, t)
  | .error e => (.error e, s)

def session (serve : ρ → Tx σ ε α) : List ρ → σ → List (Except ε α) × σ
  | [], s => ([], s)
  | r :: l, s =>
    let (x, t) := (serve r).commit s
    let (xs, u) := session serve l t
    (x :: xs, u)

theorem read_bind (g : σ → α) (f : α → Tx σ ε β) (s : σ) : (read g >>= f) s = f (g s) s := rfl

theorem bind_ok {p : Tx σ ε α} {f : α → Tx σ ε β} {s t : σ} {y : β} (h : (p >>= f) s = .ok (y, t)) :
    ∃ x s', p s = .ok (x, s') ∧ f x s' = .ok (y, t) := by
  have hbind : (p >>= f) s = Except.bind (p s) fun r => f r.1 r.2 := rfl
  rw [hbind] at h
  cases hp : p s with
  | ok r =>
    rw [hp] at h
    exact ⟨r.1, r.2, rfl, h⟩
  | error e =>
    rw [hp] at h
    cases h

/-- The condition, at the state each request of a session finds. -/
def Allowed (serve : ρ → Tx σ ε α) (ok : ρ → σ → Prop) : List ρ → σ → Prop
  | [], _ => True
  | r :: l, s => ok r s ∧ Allowed serve ok l ((serve r).commit s).2

end Tx

structure Coupling (σ : Type) where
  inv : σ → Prop
  agree : σ → σ → Prop
  may : σ → σ → Prop
  refl : ∀ s, may s s
  trans : ∀ {s t u}, may s t → may t u → may s u

namespace Coupling

variable {σ ε α β γ ρ : Type} {c : Coupling σ} {s t s' t' : σ}

structure Holds (c : Coupling σ) (s t : σ) : Prop where
  left : c.inv s
  right : c.inv t
  agree : c.agree s t

/-- What two transactions leave of two states. -/
structure Left (c : Coupling σ) (s t s' t' : σ) : Prop where
  holds : c.Holds s' t'
  left : c.may s s'
  right : c.may t t'

theorem Holds.stay (h : c.Holds s t) : c.Left s t s t := ⟨h, c.refl s, c.refl t⟩

theorem Left.trans {s'' t'' : σ} (h : c.Left s t s' t') (h' : c.Left s' t' s'' t'') : c.Left s t s'' t'' :=
  ⟨h'.holds, c.trans h.left h'.left, c.trans h.right h'.right⟩

/-- Both transactions answer, and what holds of the two answers holds, or both are refused for one reason. -/
def Both (c : Coupling σ) (Q : α → β → σ → σ → Prop) (p : Tx σ ε α) (q : Tx σ ε β) (s t : σ) : Prop :=
  match p s, q t with
  | .ok (x, s'), .ok (y, t') => c.Left s t s' t' ∧ Q x y s' t'
  | .error e, .error f => e = f
  | _, _ => False

variable {p : Tx σ ε α} {q : Tx σ ε β} {Q R : α → β → σ → σ → Prop}

theorem Both.of_ok {x : α} {y : β} (hp : p s = .ok (x, s')) (hq : q t = .ok (y, t')) (h : c.Left s t s' t')
    (hQ : Q x y s' t') : c.Both Q p q s t := by
  unfold Both
  rw [hp, hq]
  exact ⟨h, hQ⟩

theorem Both.of_error {e : ε} (hp : p s = .error e) (hq : q t = .error e) : c.Both Q p q s t := by
  unfold Both
  rw [hp, hq]

theorem Both.cases (h : c.Both Q p q s t) :
    (∃ x y s' t', p s = .ok (x, s') ∧ q t = .ok (y, t') ∧ c.Left s t s' t' ∧ Q x y s' t') ∨
      ∃ e, p s = .error e ∧ q t = .error e := by
  unfold Both at h
  cases hp : p s with
  | ok r =>
    cases hq : q t with
    | ok r' =>
      rw [hp, hq] at h
      exact .inl ⟨r.1, r'.1, r.2, r'.2, rfl, rfl, h.1, h.2⟩
    | error f =>
      rw [hp, hq] at h
      exact h.elim
  | error e =>
    cases hq : q t with
    | ok r' =>
      rw [hp, hq] at h
      exact h.elim
    | error f =>
      rw [hp, hq] at h
      exact .inr ⟨e, rfl, congrArg Except.error (Eq.symm h)⟩

theorem Both.mono (h : c.Both Q p q s t) (hR : ∀ x y s' t', c.Left s t s' t' → Q x y s' t' → R x y s' t') :
    c.Both R p q s t := by
  rcases h.cases with ⟨x, y, s', t', hp, hq, hleft, hQ⟩ | ⟨e, hp, hq⟩
  · exact Both.of_ok hp hq hleft (hR x y s' t' hleft hQ)
  · exact Both.of_error hp hq

theorem Both.pure {x : α} {y : β} (h : c.Holds s t) (hQ : Q x y s t) :
    c.Both Q (Pure.pure x : Tx σ ε α) (Pure.pure y : Tx σ ε β) s t :=
  Both.of_ok rfl rfl h.stay hQ

theorem Both.refuse (e : ε) : c.Both Q (Tx.refuse e : Tx σ ε α) (Tx.refuse e : Tx σ ε β) s t := Both.of_error rfl rfl

/-- **A read is the same read of both states.** -/
theorem Both.read {f : σ → α} {g : σ → β} (h : c.Holds s t) (hQ : Q (f s) (g t) s t) :
    c.Both Q (Tx.read f : Tx σ ε α) (Tx.read g : Tx σ ε β) s t :=
  Both.of_ok rfl rfl h.stay hQ

theorem Both.write {f g : σ → σ} {Q : Unit → Unit → σ → σ → Prop} (h : c.Left s t (f s) (g t))
    (hQ : Q () () (f s) (g t)) : c.Both Q (Tx.write f : Tx σ ε Unit) (Tx.write g : Tx σ ε Unit) s t :=
  Both.of_ok rfl rfl h hQ

/-- **Sequencing**: the rest runs from the two states the first parts left. -/
theorem Both.bind {γ δ : Type} {f : α → Tx σ ε γ} {g : β → Tx σ ε δ} {S : γ → δ → σ → σ → Prop} (h : c.Both Q p q s t)
    (hk : ∀ x y s' t', c.Left s t s' t' → Q x y s' t' → c.Both S (f x) (g y) s' t') : c.Both S (p >>= f) (q >>= g) s t := by
  rcases h.cases with ⟨x, y, s', t', hp, hq, hleft, hQ⟩ | ⟨e, hp, hq⟩
  · have hpf : (p >>= f) s = f x s' := by
      show Except.bind (p s) _ = _
      rw [hp]
      rfl
    have hqg : (q >>= g) t = g y t' := by
      show Except.bind (q t) _ = _
      rw [hq]
      rfl
    rcases (hk x y s' t' hleft hQ).cases with ⟨a, b, s'', t'', hf, hg, hleft', hS⟩ | ⟨e, hf, hg⟩
    · exact Both.of_ok (hpf.trans hf) (hqg.trans hg) (hleft.trans hleft') hS
    · exact Both.of_error (hpf.trans hf) (hqg.trans hg)
  · refine Both.of_error (e := e) ?_ ?_
    · show Except.bind (p s) _ = _
      rw [hp]
      rfl
    · show Except.bind (q t) _ = _
      rw [hq]
      rfl

/-! ## Sessions -/

variable {serve : ρ → Tx σ ε α} {ok : ρ → σ → Prop} {view : α → γ}

/-- A committed transaction leaves what `Both` says, and a refused one the two states as they were. -/
theorem Both.commit {p q : Tx σ ε α} (h : c.Holds s t) (hb : c.Both (fun x y _ _ => view x = view y) p q s t) :
    (p.commit s).1.map view = (q.commit t).1.map view ∧ c.Left s t (p.commit s).2 (q.commit t).2 := by
  unfold Tx.commit
  rcases hb.cases with ⟨x, y, s', t', hp, hq, hleft, hv⟩ | ⟨e, hp, hq⟩
  · rw [hp, hq]
    exact ⟨congrArg Except.ok hv, hleft⟩
  · rw [hp, hq]
    exact ⟨rfl, h.stay⟩

/-- **Two sessions of one list of requests answer alike**, where every request does that is allowed at both states. -/
theorem session_both (hserve : ∀ r s t, c.Holds s t → ok r s → ok r t →
      c.Both (fun x y _ _ => view x = view y) (serve r) (serve r) s t) :
    ∀ {l : List ρ} {s t : σ}, c.Holds s t → Tx.Allowed serve ok l s → Tx.Allowed serve ok l t →
      (Tx.session serve l s).1.map (Except.map view) = (Tx.session serve l t).1.map (Except.map view) ∧
        c.Left s t (Tx.session serve l s).2 (Tx.session serve l t).2
  | [], _, _, h, _, _ => ⟨rfl, h.stay⟩
  | r :: l, s, t, h, hs, ht => by
    obtain ⟨hanswer, hleft⟩ := (hserve r s t h hs.1 ht.1).commit h
    obtain ⟨hanswers, hrest⟩ := session_both hserve hleft.holds hs.2 ht.2
    exact ⟨List.cons_eq_cons.2 ⟨hanswer, hanswers⟩, hleft.trans hrest⟩

end Coupling
end Lib
