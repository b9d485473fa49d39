import SafeSend.Lib.Coupling
/-!
# What a transaction may do to the state

`Within R` is the judgement that wherever a transaction answers, the state it was given and the state it leaves are
related by `R`.  A refused transaction leaves the state it was given, so a session of transactions within an `R` that is
a preorder is within it.
-/
namespace Lib
namespace Tx

variable {σ ε α β ρ : Type} {R : σ → σ → Prop}

def Within (R : σ → σ → Prop) (p : Tx σ ε α) : Prop := ∀ s x t, p s = .ok (x, t) → R s t

theorem bind_of_ok {p : Tx σ ε α} (f : α → Tx σ ε β) {s t : σ} {x : α} (h : p s = .ok (x, t)) : (p >>= f) s = f x t := by
  have hbind : (p >>= f) s = Except.bind (p s) fun r => f r.1 r.2 := rfl
  rw [hbind, h]
  rfl

theorem bind_of_error {p : Tx σ ε α} (f : α → Tx σ ε β) {s : σ} {e : ε} (h : p s = .error e) : (p >>= f) s = .error e := by
  have hbind : (p >>= f) s = Except.bind (p s) fun r => f r.1 r.2 := rfl
  rw [hbind, h]
  rfl

theorem commit_of_ok {p : Tx σ ε α} {s t : σ} {x : α} (h : p s = .ok (x, t)) : p.commit s = (.ok x, t) := by
  unfold commit
  rw [h]

namespace Within

theorem mono {R' : σ → σ → Prop} {p : Tx σ ε α} (h : Within R p) (hR : ∀ s t, R s t → R' s t) : Within R' p :=
  fun s x t hp => hR s t (h s x t hp)

theorem refuse (e : ε) : Within R (Tx.refuse e : Tx σ ε α) := fun _ _ _ h => by cases h

theorem write {f : σ → σ} (h : ∀ s, R s (f s)) : Within R (Tx.write f : Tx σ ε Unit) := by
  intro s x t hwrite
  cases hwrite
  exact h s

section

variable (hrefl : ∀ s, R s s)
include hrefl

theorem pure (x : α) : Within R (Pure.pure x : Tx σ ε α) := by
  intro s y t h
  cases h
  exact hrefl s

theorem read (f : σ → α) : Within R (Tx.read f : Tx σ ε α) := by
  intro s x t h
  cases h
  exact hrefl s

end

theorem bind (htrans : ∀ r s t, R r s → R s t → R r t) {p : Tx σ ε α} {f : α → Tx σ ε β} (hp : Within R p)
    (hf : ∀ x, Within R (f x)) : Within R (p >>= f) := by
  intro s y t h
  obtain ⟨x, s', hx, hy⟩ := bind_ok h
  exact htrans s s' t (hp s x s' hx) (hf x s' y t hy)

end Within

/-! ## Refusals -/

/-- Wherever the transaction refuses, it refuses with one of these. -/
def Refuses (P : ε → Prop) (p : Tx σ ε α) : Prop := ∀ s e, p s = .error e → P e

namespace Refuses

variable {P : ε → Prop}

theorem pure (x : α) : Refuses P (Pure.pure x : Tx σ ε α) := fun _ _ h => by cases h

theorem read (f : σ → α) : Refuses P (Tx.read f : Tx σ ε α) := fun _ _ h => by cases h

theorem write (f : σ → σ) : Refuses P (Tx.write f : Tx σ ε Unit) := fun _ _ h => by cases h

theorem refuse {e : ε} (he : P e) : Refuses P (Tx.refuse e : Tx σ ε α) := by
  intro s e' h
  cases h
  exact he

theorem bind {p : Tx σ ε α} {f : α → Tx σ ε β} (hp : Refuses P p) (hf : ∀ x, Refuses P (f x)) :
    Refuses P (p >>= f) := by
  intro s e h
  cases hs : p s with
  | error e' =>
    cases (bind_of_error f hs).symm.trans h
    exact hp s e hs
  | ok r =>
    rw [bind_of_ok f hs] at h
    exact hf r.1 r.2 e h

end Refuses

/-! ## Sessions -/

/-- **A session does what each of its requests does**, refused ones included, from a state with the invariant they rely
on and keep. -/
theorem session_within {I : σ → Prop} {serve : ρ → Tx σ ε α} (hrefl : ∀ s, R s s)
    (htrans : ∀ r s t, R r s → R s t → R r t) : ∀ (l : List ρ) (s : σ),
      (∀ r ∈ l, ∀ s, I s → I ((serve r).commit s).2 ∧ R s ((serve r).commit s).2) → I s →
        I (session serve l s).2 ∧ R s (session serve l s).2
  | [], s, _, hs => ⟨hs, hrefl s⟩
  | r :: l, s, hserve, hs => by
    obtain ⟨hI, hR⟩ := hserve r List.mem_cons_self s hs
    obtain ⟨hI', hR'⟩ := session_within hrefl htrans l _ (fun r hr => hserve r (List.mem_cons_of_mem _ hr)) hI
    exact ⟨hI', htrans _ _ _ hR hR'⟩

end Tx
end Lib
