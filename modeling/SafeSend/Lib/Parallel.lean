import Mathlib.Logic.Function.Basic
import SafeSend.Lib.Prog
import SafeSend.Lib.Run
/-!
# Programs side by side

Programs over one state, each under a contract of its own, interleaved one operation at a time, with steps of others in
between.  Where what each of them does is what the others rely on, each of them ends in its postcondition.
-/
namespace Lib
namespace Prog

variable {Op : Type} {Ans : Op → Type} {α ε σ ι : Type}

structure Beside (Op : Type) (Ans : Op → Type) (ι α σ : Type) where
  progs : ι → Prog Op Ans α
  shared : σ

/-- The next operation of one of the programs, or something the others make of the state. -/
inductive Turn (ι ε σ : Type)
  | of (i : ι) (e : ε)
  | others (s : σ)

variable [DecidableEq ι]

def Beside.step (sem : (o : Op) → ε → σ → Option (Ans o × σ)) (w : Beside Op Ans ι α σ) :
    Turn ι ε σ → Option (Beside Op Ans ι α σ)
  | .of i e => ((w.progs i).step sem e w.shared).map fun r => ⟨Function.update w.progs i r.1, r.2⟩
  | .others s => some { w with shared := s }

def beside (sem : (o : Op) → ε → σ → Option (Ans o × σ)) (progs : ι → Prog Op Ans α) (s : σ) :
    Machine (Beside Op Ans ι α σ) (Turn ι ε σ) where
  init := ⟨progs, s⟩
  step := Beside.step sem

/-- An answer each program may count on, or a step all of them rely on. -/
def Beside.within (c : ι → Contract Op Ans ε σ) (w : Beside Op Ans ι α σ) : Turn ι ε σ → Prop
  | .of i e => ∀ o k, w.progs i = .op o k → (c i).ok o e w.shared
  | .others s => ∀ i, (c i).rely w.shared s

section

variable {sem : (o : Op) → ε → σ → Option (Ans o × σ)} {c : ι → Contract Op Ans ε σ} {post : ι → α → σ → Prop}
  {progs : ι → Prog Op Ans α} {s : σ} {w : Beside Op Ans ι α σ}
  (hsem : ∀ i, (c i).sem = sem) (hinv : ∀ i s t, (c i).inv s → (c i).rely s t → (c i).inv t)
  (hguar : ∀ i j, i ≠ j → ∀ o s t, (c i).guar o s t → (c j).rely s t)
  (hs : ∀ i, (c i).inv s) (h : ∀ i, Safe (c i) (post i) (progs i) s)
  (hreach : (Prog.beside sem progs s).Reach (Beside.within c) w)
include hsem hinv hguar hs h hreach

/-- **Programs that keep what the others rely on are safe side by side.** -/
theorem Safe.beside (i : ι) : (c i).inv w.shared ∧ Safe (c i) (post i) (w.progs i) w.shared := by
  have hall : ∀ i, (c i).inv w.shared ∧ Safe (c i) (post i) (w.progs i) w.shared := by
    refine Machine.Reach.inv (I := fun w => ∀ i, (c i).inv w.shared ∧ Safe (c i) (post i) (w.progs i) w.shared) ?_ ?_ hreach
    · exact fun i => ⟨hs i, h i⟩
    · intro w a t _ hw hok hstep j
      obtain ⟨hj, hsafe⟩ := hw j
      cases a with
      | others s =>
        obtain rfl := Option.some.inj hstep
        exact ⟨hinv j _ _ hj (hok j), Safe.rely hsafe (hok j)⟩
      | of i e =>
        obtain ⟨⟨p, u⟩, hp, rfl⟩ := Option.map_eq_some_iff.1 hstep
        obtain ⟨o, k, x, hop, hx, rfl⟩ := step_eq_some hp
        obtain ⟨hi, hsafei⟩ := hw i
        rw [hop] at hsafei
        obtain ⟨hi', hg, hk⟩ := hsafei.answer hi (hok o k hop) ((hsem i).symm ▸ hx)
        by_cases hji : j = i
        · subst hji
          simp only [Function.update_self]
          exact ⟨hi', hk⟩
        · have hr := hguar i j (Ne.symm hji) o _ _ hg
          simp only [Function.update_of_ne hji]
          exact ⟨hinv j _ _ hj hr, Safe.rely hsafe hr⟩
  exact hall i

/-- What one of them ends in. -/
theorem Safe.beside_post {i : ι} {a : α} (hend : w.progs i = .ret a) : post i a w.shared := by
  obtain ⟨hi, hsafe⟩ := Safe.beside hsem hinv hguar hs h hreach i
  rw [hend] at hsafe
  exact hsafe.post hi

end

end Prog
end Lib
