import SafeSend.Lib.Prog
/-!
# What a program was answered

A run of a program as the answers it was given, in order.  Of a program that ends in a value or an exception some
answers are fatal: nothing in it catches what they raise.  `Lets` is the judgement that such an answer ends the program
with its exception, and that nothing else does but an exception of the program's own.
-/
namespace Lib
namespace Prog

variable {Op : Type} {Ans : Op → Type} {α β ε : Type}

/-- The run that was given these answers ends with this. -/
inductive Traced : Prog Op Ans α → List (Sigma Ans) → α → Prop
  | ret (a : α) : Traced (ret a) [] a
  | op {o : Op} {k : Ans o → Prog Op Ans α} {x : Ans o} {l : List (Sigma Ans)} {a : α} (h : Traced (k x) l a) :
    Traced (op o k) (⟨o, x⟩ :: l) a

theorem traced_ret {a b : α} {l : List (Sigma Ans)} (h : Traced (ret a : Prog Op Ans α) l b) : l = [] ∧ b = a := by
  cases h
  exact ⟨rfl, rfl⟩

theorem traced_op {o : Op} {k : Ans o → Prog Op Ans α} {l : List (Sigma Ans)} {a : α} (h : Traced (op o k) l a) :
    ∃ x l', l = ⟨o, x⟩ :: l' ∧ Traced (k x) l' a := by
  cases h with
  | op h => exact ⟨_, _, rfl, h⟩

/-- **Sequencing appends the answers.** -/
theorem traced_bind {f : α → Prog Op Ans β} {b : β} : ∀ {p : Prog Op Ans α} {l : List (Sigma Ans)},
    Traced (p >>= f) l b → ∃ a l₁ l₂, l = l₁ ++ l₂ ∧ Traced p l₁ a ∧ Traced (f a) l₂ b
  | .ret a, l, h => ⟨a, [], l, rfl, .ret a, h⟩
  | .op _ _, _, h => by
    obtain ⟨x, l', rfl, hk⟩ := traced_op h
    obtain ⟨a, l₁, l₂, rfl, hp, hf⟩ := traced_bind hk
    exact ⟨a, ⟨_, x⟩ :: l₁, l₂, rfl, .op hp, hf⟩

variable {fatal : Sigma Ans → Option ε} {own : ε → Prop}

/-- What ended the run with an exception: its last answer, where that is fatal, or an exception of the program's own. -/
structure Escapes (fatal : Sigma Ans → Option ε) (own : ε → Prop) (l : List (Sigma Ans)) (r : Except ε α) : Prop where
  ends : ∀ x ∈ l, ∀ e, fatal x = some e → r = .error e
  cause : ∀ e, r = .error e → own e ∨ ∃ x, l.getLast? = some x ∧ fatal x = some e

/-- The program lets what is fatal through, and raises nothing else but its own. -/
def Lets (fatal : Sigma Ans → Option ε) (own : ε → Prop) (p : Prog Op Ans (Except ε α)) : Prop :=
  ∀ l r, Traced p l r → Escapes fatal own l r

theorem Lets.ok (a : α) : Lets fatal own (.ret (.ok a) : Prog Op Ans (Except ε α)) := by
  intro l r h
  obtain ⟨rfl, rfl⟩ := traced_ret h
  exact ⟨fun _ hx => absurd hx List.not_mem_nil, fun _ he => by cases he⟩

theorem Lets.error {e : ε} (he : own e) : Lets fatal own (.ret (.error e) : Prog Op Ans (Except ε α)) := by
  intro l r h
  obtain ⟨rfl, rfl⟩ := traced_ret h
  refine ⟨fun _ hx => absurd hx List.not_mem_nil, fun e' he' => .inl ?_⟩
  cases he'
  exact he

/-- A value, or an exception of the program's own. -/
theorem Lets.result {r : Except ε α} (hr : ∀ e, r = .error e → own e) :
    Lets fatal own (.ret r : Prog Op Ans (Except ε α)) := by
  cases r with
  | ok a => exact Lets.ok a
  | error e => exact Lets.error (hr e rfl)

/-- **One operation**: a fatal answer ends the program there, and the rest lets through what it must after any other. -/
theorem Lets.op {o : Op} {k : Ans o → Prog Op Ans (Except ε α)}
    (hfatal : ∀ x e, fatal ⟨o, x⟩ = some e → k x = .ret (.error e))
    (hk : ∀ x, fatal ⟨o, x⟩ = none → Lets fatal own (k x)) : Lets fatal own (.op o k) := by
  intro l r h
  obtain ⟨x, l', rfl, hrest⟩ := traced_op h
  cases hx : fatal ⟨o, x⟩ with
  | some e =>
    rw [hfatal x e hx] at hrest
    obtain ⟨rfl, rfl⟩ := traced_ret hrest
    refine ⟨fun y hy e' he' => ?_, fun e' he' => .inr ⟨⟨o, x⟩, rfl, ?_⟩⟩
    · rw [List.mem_singleton.1 hy, hx] at he'
      rw [Option.some.inj he']
    · rw [hx, Except.error.inj he']
  | none =>
    obtain ⟨hends, hcause⟩ := hk x hx l' r hrest
    refine ⟨fun y hy e he => ?_, fun e he => ?_⟩
    · rcases List.mem_cons.1 hy with rfl | hy
      · rw [hx] at he
        cases he
      · exact hends y hy e he
    · rcases hcause e he with hown | ⟨y, hlast, hy⟩
      · exact .inl hown
      · refine .inr ⟨y, ?_, hy⟩
        rw [List.getLast?_cons, hlast]
        rfl

theorem Lets.perform {o : Op} {f : Ans o → Prog Op Ans (Except ε α)}
    (hfatal : ∀ x e, fatal ⟨o, x⟩ = some e → f x = .ret (.error e))
    (hk : ∀ x, fatal ⟨o, x⟩ = none → Lets fatal own (f x)) : Lets fatal own (Prog.perform o >>= f) := Lets.op hfatal hk

/-- **Sequencing**: what the first program raises is not caught between the two. -/
theorem Lets.bind {p : Prog Op Ans (Except ε α)} {f : Except ε α → Prog Op Ans (Except ε β)} (hp : Lets fatal own p)
    (hraise : ∀ e, f (.error e) = .ret (.error e)) (hk : ∀ a, Lets fatal own (f (.ok a))) :
    Lets fatal own (p >>= f) := by
  intro l r h
  obtain ⟨a, l₁, l₂, rfl, h₁, h₂⟩ := traced_bind h
  obtain ⟨hends, hcause⟩ := hp l₁ a h₁
  cases a with
  | error e =>
    rw [hraise] at h₂
    obtain ⟨rfl, rfl⟩ := traced_ret h₂
    rw [List.append_nil]
    refine ⟨fun x hx e' he' => ?_, fun e' he' => ?_⟩
    · rw [Except.error.inj (hends x hx e' he')]
    · obtain rfl := Except.error.inj he'
      exact hcause e rfl
  | ok a =>
    obtain ⟨hends₂, hcause₂⟩ := hk a l₂ r h₂
    refine ⟨fun x hx e he => ?_, fun e he => ?_⟩
    · rcases List.mem_append.1 hx with hx | hx
      · cases hends x hx e he
      · exact hends₂ x hx e he
    · rcases hcause₂ e he with hown | ⟨x, hlast, hx⟩
      · exact .inl hown
      · refine .inr ⟨x, ?_, hx⟩
        rw [List.getLast?_append, hlast]
        rfl

end Prog
end Lib
