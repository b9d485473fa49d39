import Mathlib.Tactic.Common
/-!
# Programs over a shared state

A program is a tree of atomic operations: each is carried out on the shared state in one step, and its answer picks the
rest of the program.  Several programs run interleaved, one operation at a time, so what a program knows between two of
its operations is only what the others keep.  A `Contract` states both sides of that (rely and guarantee), and
`Safe` is the judgement that a program, continued from a state, keeps its side and ends in its postcondition.
-/
namespace Lib

/-- An operation that answers: what the state is then, and the answer. -/
theorem answer_of_some {α σ : Type} {a x : α} {s t : σ} (h : some (a, s) = some (x, t)) : t = s ∧ x = a := by
  simp only [Option.some.injEq, Prod.mk.injEq] at h
  exact ⟨h.2.symm, h.1.symm⟩

inductive Prog (Op : Type) (Ans : Op → Type) (α : Type) : Type
  | ret (a : α)
  | op (o : Op) (k : Ans o → Prog Op Ans α)

namespace Prog

variable {Op : Type} {Ans : Op → Type} {α β γ ε σ : Type}

def bind : Prog Op Ans α → (α → Prog Op Ans β) → Prog Op Ans β
  | ret a, f => f a
  | op o k, f => op o fun x => (k x).bind f

instance : Monad (Prog Op Ans) where
  pure := ret
  bind := bind

/-- One operation, answering what it answers. -/
def perform (o : Op) : Prog Op Ans (Ans o) := op o ret

@[simp] theorem pure_eq (a : α) : (pure a : Prog Op Ans α) = ret a := rfl

@[simp] theorem ret_bind (a : α) (f : α → Prog Op Ans β) : (ret a >>= f) = f a := rfl

@[simp] theorem op_bind (o : Op) (k : Ans o → Prog Op Ans α) (f : α → Prog Op Ans β) :
    (op o k >>= f) = op o fun x => k x >>= f := rfl

@[simp] theorem perform_bind (o : Op) (f : Ans o → Prog Op Ans β) : (perform o >>= f) = op o f := rfl

@[simp] theorem bind_assoc (f : α → Prog Op Ans β) (g : β → Prog Op Ans γ) :
    ∀ p : Prog Op Ans α, (p >>= f) >>= g = p >>= fun a => f a >>= g
  | ret _ => rfl
  | op o k => by
    simp only [op_bind]
    congr
    funext x
    exact bind_assoc f g (k x)

/-- The program with each of its operations carried out by a program over others. -/
def interpret {Op' : Type} {Ans' : Op' → Type} (f : (o : Op) → Prog Op' Ans' (Ans o)) :
    Prog Op Ans α → Prog Op' Ans' α
  | ret a => ret a
  | op o k => f o >>= fun x => (k x).interpret f

/-- The next operation, carried out with the environment's answer `e`; none where it has ended or cannot move. -/
def step (sem : (o : Op) → ε → σ → Option (Ans o × σ)) : Prog Op Ans α → ε → σ → Option (Prog Op Ans α × σ)
  | ret _, _, _ => none
  | op o k, e, s => (sem o e s).map fun r => (k r.1, r.2)

/-- A run to the end with nothing in between, the environment's answers taken from the list; what is left of it is
returned. -/
def runWith (sem : (o : Op) → ε → σ → Option (Ans o × σ)) : Prog Op Ans α → List ε → σ → Option (α × σ)
  | ret a, _, s => some (a, s)
  | op _ _, [], _ => none
  | op o k, e :: es, s => (sem o e s).bind fun r => (k r.1).runWith sem es r.2

/-- An uninterrupted run from `s` answers `a` and leaves `t`. -/
inductive Runs (sem : (o : Op) → ε → σ → Option (Ans o × σ)) : Prog Op Ans α → σ → α → σ → Prop
  | ret (a : α) (s : σ) : Runs sem (ret a) s a s
  | op {o : Op} {k : Ans o → Prog Op Ans α} {e : ε} {s s' t : σ} {x : Ans o} {a : α} (h : sem o e s = some (x, s'))
      (hk : Runs sem (k x) s' a t) : Runs sem (op o k) s a t

variable {sem : (o : Op) → ε → σ → Option (Ans o × σ)}

theorem step_eq_some {p p' : Prog Op Ans α} {e : ε} {s t : σ} (h : p.step sem e s = some (p', t)) :
    ∃ o k x, p = op o k ∧ sem o e s = some (x, t) ∧ p' = k x := by
  cases p with
  | ret a => cases h
  | op o k =>
    simp only [step, Option.map_eq_some_iff] at h
    obtain ⟨⟨x, s'⟩, hs, he⟩ := h
    simp only [Prod.mk.injEq] at he
    obtain ⟨rfl, rfl⟩ := he
    exact ⟨o, k, x, rfl, hs, rfl⟩

theorem runs_ret {a b : α} {s t : σ} (h : Runs sem (.ret a : Prog Op Ans α) s b t) : b = a ∧ t = s := by
  cases h
  exact ⟨rfl, rfl⟩

theorem runs_op {o : Op} {k : Ans o → Prog Op Ans α} {a : α} {s t : σ} (h : Runs sem (.op o k) s a t) :
    ∃ e x s', sem o e s = some (x, s') ∧ Runs sem (k x) s' a t := by
  cases h with
  | op hs hk => exact ⟨_, _, _, hs, hk⟩

theorem runs_perform {o : Op} {f : Ans o → Prog Op Ans β} {b : β} {s t : σ} (h : Runs sem (perform o >>= f) s b t) :
    ∃ e x s', sem o e s = some (x, s') ∧ Runs sem (f x) s' b t := runs_op h

theorem runs_bind {f : α → Prog Op Ans β} {b : β} {t : σ} : ∀ {p : Prog Op Ans α} {s : σ}, Runs sem (p >>= f) s b t →
    ∃ a u, Runs sem p s a u ∧ Runs sem (f a) u b t
  | ret a, s, h => ⟨a, s, .ret a s, h⟩
  | op _ _, _, h =>
    let ⟨_, _, _, hs, hk⟩ := runs_op h
    let ⟨a, u, hp, hf⟩ := runs_bind hk
    ⟨a, u, .op hs hp, hf⟩

theorem runs_of_runWith : ∀ {p : Prog Op Ans α} {es : List ε} {s t : σ} {a : α},
    p.runWith sem es s = some (a, t) → Runs sem p s a t
  | ret b, _, s, t, a, h => by
    simp only [runWith, Option.some.injEq, Prod.mk.injEq] at h
    obtain ⟨rfl, rfl⟩ := h
    exact .ret _ _
  | op o k, [], s, t, a, h => by cases h
  | op o k, e :: es, s, t, a, h => by
    simp only [runWith, Option.bind_eq_some_iff] at h
    obtain ⟨⟨x, s'⟩, hs, hk⟩ := h
    exact .op hs (runs_of_runWith hk)

/-- A run whose operations are carried out so is one of any semantics that carries them out so. -/
theorem Runs.mono {sem' : (o : Op) → ε → σ → Option (Ans o × σ)} (hsem : ∀ o e s r, sem o e s = some r → sem' o e s = some r)
    {p : Prog Op Ans α} {s t : σ} {a : α} (h : Runs sem p s a t) : Runs sem' p s a t := by
  induction h with
  | ret a s => exact .ret a s
  | op hs _ ih => exact .op (hsem _ _ _ _ hs) ih

/-- Every operation the program can still come to satisfies `P`, whatever it is answered. -/
def Uses (P : Op → Prop) : Prog Op Ans α → Prop
  | ret _ => True
  | op o k => P o ∧ ∀ x, Uses P (k x)

theorem Uses.done {P : Op → Prop} {a : α} : Uses P (ret a : Prog Op Ans α) := trivial

theorem Uses.op_iff {P : Op → Prop} {o : Op} {k : Ans o → Prog Op Ans α} :
    Uses P (.op o k) ↔ P o ∧ ∀ x, Uses P (k x) := Iff.rfl

theorem Uses.single {P : Op → Prop} {o : Op} (h : P o) : Uses P (Prog.perform o : Prog Op Ans (Ans o)) :=
  ⟨h, fun _ => trivial⟩

theorem Uses.bind {P : Op → Prop} {f : α → Prog Op Ans β} (hf : ∀ a, Uses P (f a)) :
    ∀ {p : Prog Op Ans α}, Uses P p → Uses P (p >>= f)
  | ret a, _ => hf a
  | op _ _, h => ⟨h.1, fun x => Uses.bind hf (h.2 x)⟩

theorem Uses.perform {P : Op → Prop} {o : Op} {f : Ans o → Prog Op Ans β} (h : P o) (hf : ∀ x, Uses P (f x)) :
    Uses P (perform o >>= f) := ⟨h, hf⟩

theorem Uses.mono {P Q : Op → Prop} (hPQ : ∀ o, P o → Q o) : ∀ {p : Prog Op Ans α}, Uses P p → Uses Q p
  | ret _, _ => trivial
  | op o _, h => ⟨hPQ o h.1, fun x => Uses.mono hPQ (h.2 x)⟩

theorem Uses.step {P : Op → Prop} {p p' : Prog Op Ans α} {e : ε} {s t : σ} (hu : Uses P p)
    (h : p.step sem e s = some (p', t)) : Uses P p' := by
  obtain ⟨o, k, x, rfl, -, rfl⟩ := step_eq_some h
  exact hu.2 x

/-- A program whose operations can always be carried out runs to its end. -/
theorem runs_of_uses : ∀ {p : Prog Op Ans α}, Uses (fun o => ∀ s, ∃ e x t, sem o e s = some (x, t)) p →
    ∀ s, ∃ a t, Runs sem p s a t
  | ret a, _, s => ⟨a, s, .ret a s⟩
  | op _ _, h, s =>
    let ⟨_, x, s', hs⟩ := h.1 s
    let ⟨a, t, hk⟩ := runs_of_uses (h.2 x) s'
    ⟨a, t, .op hs hk⟩

/-- Whatever its operations are answered, what the program ends with satisfies `P`. -/
def Ends (P : α → Prop) : Prog Op Ans α → Prop
  | ret a => P a
  | op _ k => ∀ x, Ends P (k x)

theorem Ends.ret {P : α → Prop} {a : α} (h : P a) : Ends P (ret a : Prog Op Ans α) := h

theorem Ends.ret_iff {P : α → Prop} {a : α} : Ends P (.ret a : Prog Op Ans α) ↔ P a := Iff.rfl

theorem Ends.op_iff {P : α → Prop} {o : Op} {k : Ans o → Prog Op Ans α} : Ends P (.op o k) ↔ ∀ x, Ends P (k x) := Iff.rfl

theorem Ends.bind {P : β → Prop} {f : α → Prog Op Ans β} (hf : ∀ a, Ends P (f a)) :
    ∀ p : Prog Op Ans α, Ends P (p >>= f)
  | .ret a => hf a
  | .op _ k => fun x => Ends.bind hf (k x)

theorem Ends.bind_of {Q : α → Prop} {P : β → Prop} {f : α → Prog Op Ans β} (hf : ∀ a, Q a → Ends P (f a)) :
    ∀ {p : Prog Op Ans α}, Ends Q p → Ends P (p >>= f)
  | .ret a, h => hf a h
  | .op _ _, h => fun x => Ends.bind_of hf (h x)

/-- What a program may count on and what it owes.  `ok` is what is assumed of the environment's answer to an operation,
`inv` the invariant of the shared state, `rely` what the others do between two of the program's operations and `guar`
what each of its own operations does. -/
structure Contract (Op : Type) (Ans : Op → Type) (ε σ : Type) where
  sem : (o : Op) → ε → σ → Option (Ans o × σ)
  ok : (o : Op) → ε → σ → Prop
  inv : σ → Prop
  rely : σ → σ → Prop
  guar : Op → σ → σ → Prop
  refl : ∀ s, rely s s
  trans : ∀ {s t u}, rely s t → rely t u → rely s u

variable {c : Contract Op Ans ε σ}

/-- **The program, continued from the state, keeps its contract and ends in `post`**, whatever the others do in between
within `rely`. -/
def Safe (c : Contract Op Ans ε σ) (post : α → σ → Prop) : Prog Op Ans α → σ → Prop
  | ret a, s => ∀ t, c.rely s t → c.inv t → post a t
  | op o k, s => ∀ t, c.rely s t → c.inv t → ∀ e x u, c.ok o e t → c.sem o e t = some (x, u) →
      c.inv u ∧ c.guar o t u ∧ Safe c post (k x) u

/-- The others' steps keep the judgement. -/
theorem Safe.rely {post : α → σ → Prop} {p : Prog Op Ans α} {s t : σ} (h : Safe c post p s) (hr : c.rely s t) :
    Safe c post p t := by
  cases p with
  | ret a => exact fun u hu hi => h u (c.trans hr hu) hi
  | op o k => exact fun u hu hi => h u (c.trans hr hu) hi

/-- It is enough to show it where the invariant holds, after the others' next steps. -/
theorem Safe.of_rely {post : α → σ → Prop} {p : Prog Op Ans α} {s : σ}
    (h : ∀ t, c.rely s t → c.inv t → Safe c post p t) : Safe c post p s := by
  cases p with
  | ret a => exact fun t ht hi => h t ht hi t (c.refl t) hi
  | op o k => exact fun t ht hi => h t ht hi t (c.refl t) hi

theorem Safe.mono {post post' : α → σ → Prop} (hpost : ∀ a t, c.inv t → post a t → post' a t) :
    ∀ {p : Prog Op Ans α} {s : σ}, Safe c post p s → Safe c post' p s
  | ret a, _, h => fun t ht hi => hpost a t hi (h t ht hi)
  | op _ _, _, h => fun t ht hi e x u hok hs =>
    let ⟨hi', hg, hk⟩ := h t ht hi e x u hok hs
    ⟨hi', hg, Safe.mono hpost hk⟩

/-- A program that keeps its promise keeps a weaker one. -/
theorem Safe.promise {guar' : Op → σ → σ → Prop} (hguar : ∀ o s t, c.guar o s t → guar' o s t) {post : α → σ → Prop} :
    ∀ {p : Prog Op Ans α} {s : σ}, Safe c post p s → Safe { c with guar := guar' } post p s
  | ret _, _, h => h
  | op _ _, _, h => fun t ht hi e x u hok hs =>
    let ⟨hi', hg, hk⟩ := h t ht hi e x u hok hs
    ⟨hi', hguar _ _ _ hg, Safe.promise hguar hk⟩

/-- **Sequencing**: the second program is safe wherever the first one ends. -/
theorem Safe.bind {post : β → σ → Prop} {f : α → Prog Op Ans β} : ∀ {p : Prog Op Ans α} {s : σ},
    Safe c (fun a t => Safe c post (f a) t) p s → Safe c post (p >>= f) s
  | ret _, _, h => Safe.of_rely fun t ht hi => h t ht hi
  | op _ _, _, h => fun t ht hi e x u hok hs =>
    let ⟨hi', hg, hk⟩ := h t ht hi e x u hok hs
    ⟨hi', hg, Safe.bind hk⟩

/-- An assertion the others keep. -/
def Stable (c : Contract Op Ans ε σ) (P : σ → Prop) : Prop := ∀ s t, P s → c.rely s t → c.inv t → P t

theorem Stable.and {P Q : σ → Prop} (hP : Stable c P) (hQ : Stable c Q) : Stable c fun s => P s ∧ Q s :=
  fun s t h hr hi => ⟨hP s t h.1 hr hi, hQ s t h.2 hr hi⟩

theorem Safe.ret {post : α → σ → Prop} {a : α} {s : σ} (hpost : Stable c (post a)) (h : post a s) :
    Safe c post (.ret a) s := fun t ht hi => hpost s t h ht hi

/-- **One operation**: from a stable assertion `P`, what it leaves makes the rest safe. -/
theorem Safe.op {post : α → σ → Prop} {P : σ → Prop} (hP : Stable c P) {o : Op} {k : Ans o → Prog Op Ans α} {s : σ}
    (h : P s)
    (hop : ∀ t e x u, P t → c.inv t → c.ok o e t → c.sem o e t = some (x, u) →
      c.inv u ∧ c.guar o t u ∧ Safe c post (k x) u) :
    Safe c post (.op o k) s :=
  fun t ht hi e x u hok hs => hop t e x u (hP s t h ht hi) hi hok hs

theorem Safe.perform {post : α → σ → Prop} {P : σ → Prop} (hP : Stable c P) {o : Op} {f : Ans o → Prog Op Ans α}
    {s : σ} (h : P s)
    (hop : ∀ t e x u, P t → c.inv t → c.ok o e t → c.sem o e t = some (x, u) →
      c.inv u ∧ c.guar o t u ∧ Safe c post (f x) u) :
    Safe c post (perform o >>= f) s := Safe.op hP h hop

/-- **Framing**: where the program's own operations are such as the others', a stable assertion stands beside it. -/
theorem Safe.frame {post : α → σ → Prop} {P : σ → Prop} {Q : Op → Prop} (hP : Stable c P)
    (hself : ∀ o, Q o → ∀ e s t x, c.inv s → c.sem o e s = some (x, t) → c.rely s t) :
    ∀ {p : Prog Op Ans α} {s : σ}, Uses Q p → P s → Safe c post p s → Safe c (fun a t => post a t ∧ P t) p s
  | .ret _, s, _, h, hs => fun t ht hi => ⟨hs t ht hi, hP s t h ht hi⟩
  | .op o _, s, hu, h, hs => fun t ht hi e x u hok hsem =>
    let ⟨hiu, hg, hk⟩ := hs t ht hi e x u hok hsem
    ⟨hiu, hg, Safe.frame hP hself (hu.2 x) (hP t u (hP s t h ht hi) (hself o hu.1 e t u x hi hsem) hiu) hk⟩

/-- **Framing**: where what the program's operations guarantee is within `rely`, a stable assertion stands beside it. -/
theorem Safe.standing {post : α → σ → Prop} {P : σ → Prop} (hP : Stable c P)
    (hself : ∀ o e s t x, c.inv s → c.guar o s t → c.sem o e s = some (x, t) → c.rely s t) :
    ∀ {p : Prog Op Ans α} {s : σ}, P s → Safe c post p s → Safe c (fun a t => post a t ∧ P t) p s
  | .ret _, s, h, hs => fun t ht hi => ⟨hs t ht hi, hP s t h ht hi⟩
  | .op o _, s, h, hs => fun t ht hi e x u hok hsem =>
    let ⟨hiu, hg, hk⟩ := hs t ht hi e x u hok hsem
    ⟨hiu, hg, Safe.standing hP hself (hP t u (hP s t h ht hi) (hself o e t u x hi hg hsem) hiu) hk⟩

theorem Stable.true (c : Contract Op Ans ε σ) : Stable c fun _ => True := fun _ _ _ _ _ => trivial

/-- A program that has ended keeps everything. -/
theorem Safe.done {a : α} {s : σ} : Safe c (fun _ _ => True) (.ret a) s := fun _ _ _ => trivial

/-- What a safe program that has ended leaves, where the invariant holds. -/
theorem Safe.post {post : α → σ → Prop} {a : α} {s : σ} (h : Safe c post (.ret a) s) (hi : c.inv s) : post a s :=
  h s (c.refl s) hi

/-- What a safe program's next operation does, answered `x`. -/
theorem Safe.answer {post : α → σ → Prop} {o : Op} {k : Ans o → Prog Op Ans α} {e : ε} {s t : σ} {x : Ans o}
    (h : Safe c post (.op o k) s) (hi : c.inv s) (hok : c.ok o e s) (hs : c.sem o e s = some (x, t)) :
    c.inv t ∧ c.guar o s t ∧ Safe c post (k x) t := h s (c.refl s) hi e x t hok hs

/-- What a safe program's next operation does. -/
theorem Safe.step {post : α → σ → Prop} {p p' : Prog Op Ans α} {e : ε} {s t : σ} (h : Safe c post p s) (hi : c.inv s)
    (hok : ∀ o k, p = .op o k → c.ok o e s) (hs : p.step c.sem e s = some (p', t)) :
    ∃ o k, p = .op o k ∧ c.inv t ∧ c.guar o s t ∧ Safe c post p' t := by
  obtain ⟨o, k, x, rfl, hsem, rfl⟩ := step_eq_some hs
  obtain ⟨hi', hg, hk⟩ := h s (c.refl s) hi e x t (hok o k rfl) hsem
  exact ⟨o, k, rfl, hi', hg, hk⟩

/-- A run to the end under a contract: between two operations the others act within `rely`, and each operation is
answered within `ok`. -/
inductive Among (c : Contract Op Ans ε σ) : Prog Op Ans α → σ → α → σ → Prop
  | ret {a : α} {s t : σ} (hr : c.rely s t) : Among c (ret a) s a t
  | op {o : Op} {k : Ans o → Prog Op Ans α} {e : ε} {s t u v : σ} {x : Ans o} {a : α} (hr : c.rely s t)
      (hok : c.ok o e t) (hs : c.sem o e t = some (x, u)) (hk : Among c (k x) u a v) : Among c (op o k) s a v

/-- **Soundness**: what a safe program's runs end in satisfies its postcondition. -/
theorem Safe.among {post : α → σ → Prop} (hinv : ∀ s t, c.inv s → c.rely s t → c.inv t) {p : Prog Op Ans α} {s t : σ}
    {a : α} (hrun : Among c p s a t) (hi : c.inv s) (h : Safe c post p s) : post a t := by
  induction hrun with
  | ret hr => exact h _ hr (hinv _ _ hi hr)
  | op hr hok hs hk ih =>
    obtain ⟨hi', -, hk⟩ := h _ hr (hinv _ _ hi hr) _ _ _ hok hs
    exact ih hi' hk

/-- An uninterrupted run is one of a contract that assumes nothing. -/
theorem among_of_runs (hok : ∀ o e s, c.ok o e s) {p : Prog Op Ans α} {s t : σ} {a : α} (h : Runs c.sem p s a t) :
    Among c p s a t := by
  induction h with
  | ret a s => exact .ret (c.refl s)
  | op hs _ ih => exact .op (c.refl _) (hok _ _ _) hs ih

theorem Among.perform {o : Op} {f : Ans o → Prog Op Ans α} {e : ε} {s t u : σ} {x : Ans o} {a : α} (hok : c.ok o e s)
    (hs : c.sem o e s = some (x, t)) (h : Among c (f x) t a u) : Among c (Prog.perform o >>= f) s a u :=
  .op (c.refl s) hok hs h

theorem Among.rely {p : Prog Op Ans α} {s t u : σ} {a : α} (hr : c.rely s t) (h : Among c p t a u) : Among c p s a u := by
  cases h with
  | ret hr' => exact .ret (c.trans hr hr')
  | op hr' hok hs hk => exact .op (c.trans hr hr') hok hs hk

theorem Among.bind {f : α → Prog Op Ans β} {p : Prog Op Ans α} {s t u : σ} {a : α} {b : β} (h : Among c p s a t)
    (hf : Among c (f a) t b u) : Among c (p >>= f) s b u := by
  induction h with
  | ret hr => exact hf.rely hr
  | op hr hok hs _ ih => exact .op hr hok hs (ih hf)

/-- From every state the program has a run to its end under the contract. -/
def Live (c : Contract Op Ans ε σ) (p : Prog Op Ans α) : Prop := ∀ s, ∃ a t, Among c p s a t

theorem Live.ret (a : α) : Live c (ret a : Prog Op Ans α) := fun s => ⟨a, s, .ret (c.refl s)⟩

/-- **One operation**: it can always be answered, and what may be answered lets the rest come to its end. -/
theorem Live.perform {o : Op} (P : Ans o → Prop) {f : Ans o → Prog Op Ans α}
    (h : ∀ s, ∃ e x t, c.ok o e s ∧ c.sem o e s = some (x, t) ∧ P x) (hf : ∀ x, P x → Live c (f x)) :
    Live c (Prog.perform o >>= f) := by
  intro s
  obtain ⟨e, x, t, hok, hs, hx⟩ := h s
  obtain ⟨a, u, hk⟩ := hf x hx t
  exact ⟨a, u, .perform hok hs hk⟩

theorem Live.bind {f : α → Prog Op Ans β} {p : Prog Op Ans α} (hp : Live c p) (hf : ∀ a, Live c (f a)) :
    Live c (p >>= f) := by
  intro s
  obtain ⟨a, t, hrun⟩ := hp s
  obtain ⟨b, u, hk⟩ := hf a t
  exact ⟨b, u, hrun.bind hk⟩

/-- A run under a contract that is cut off, with `p'` left to be done. -/
inductive Cut (c : Contract Op Ans ε σ) : Prog Op Ans α → σ → Prog Op Ans α → σ → Prop
  | here {p : Prog Op Ans α} {s t : σ} (hr : c.rely s t) : Cut c p s p t
  | op {o : Op} {k : Ans o → Prog Op Ans α} {e : ε} {s t u v : σ} {x : Ans o} {p' : Prog Op Ans α} (hr : c.rely s t)
      (hok : c.ok o e t) (hs : c.sem o e t = some (x, u)) (hk : Cut c (k x) u p' v) : Cut c (op o k) s p' v

theorem Among.cut {p : Prog Op Ans α} {s t : σ} {a : α} (h : Among c p s a t) : Cut c p s (.ret a) t := by
  induction h with
  | ret hr => exact .here hr
  | op hr hok hs _ ih => exact .op hr hok hs ih

/-- **Wherever a safe program is cut off**, the invariant it is safe under stands, and the rest of it is safe. -/
theorem Safe.cut {I : σ → Prop} {post : α → σ → Prop} (hinv : ∀ s t, I s → c.rely s t → I t) {p p' : Prog Op Ans α}
    {s t : σ} (hcut : Cut c p s p' t) (hi : I s) (h : Safe { c with inv := I } post p s) :
    I t ∧ Safe { c with inv := I } post p' t := by
  induction hcut with
  | here hr => exact ⟨hinv _ _ hi hr, h.rely hr⟩
  | op hr hok hs _ ih =>
    obtain ⟨hi', -, hk⟩ := h _ hr (hinv _ _ hi hr) _ _ _ hok hs
    exact ih hi' hk

-- The rules above are how a program is walked through; unfolding would run it.
attribute [irreducible] Uses Ends Safe

end Prog
end Lib
