import Mathlib.Data.List.Basic
/-!
# Cut texts

A text written in code words and cut at a length, and texts that come in chunks.  Cut anywhere, what is left of a coded
text is its longest prefix that fits and a piece of one code word.  A reader that keeps what it cannot read yet, and reads
on from there, reads the same of any chunks.
-/
namespace Lib

variable {α β γ σ : Type*}

/-! ## At a length -/

structure LongestPrefix (fits : List α → Prop) (l p : List α) : Prop where
  isPrefix : p <+: l
  prefix_fits : fits p
  longest : ∀ p', p' <+: l → fits p' → p' <+: p

/-- Where a cut falls: behind the last code word, or short of the end of the next one. -/
inductive CutAt (code : α → List β) (n : Nat) (p : List α) : List α → List β → Prop
  | whole (h : (p.flatMap code).length ≤ n) : CutAt code n p [] []
  | inside (c : α) (q : List α) (r : List β) (hr : r <+: code c) (hshort : r.length < (code c).length)
    (hlength : (p.flatMap code).length + r.length = n) : CutAt code n p (c :: q) r

theorem take_code (code : α → List β) : ∀ (l : List α) (n : Nat), ∃ p q r, l = p ++ q ∧
    (l.flatMap code).take n = p.flatMap code ++ r ∧ CutAt code n p q r
  | [], n => ⟨[], [], [], rfl, by simp, .whole (Nat.zero_le n)⟩
  | c :: l, n => by
    by_cases hfit : (code c).length ≤ n
    · obtain ⟨p, q, r, rfl, htake, hcut⟩ := take_code code l (n - (code c).length)
      refine ⟨c :: p, q, r, rfl, ?_, ?_⟩
      · rw [List.flatMap_cons, List.take_append, List.take_of_length_le hfit, htake, List.flatMap_cons, List.append_assoc]
      · cases hcut with
        | whole h =>
          refine .whole ?_
          rw [List.flatMap_cons, List.length_append]
          omega
        | inside c' q r hr hshort hlength =>
          refine .inside c' q r hr hshort ?_
          rw [List.flatMap_cons, List.length_append]
          omega
    · refine ⟨[], c :: l, (code c).take n, rfl, ?_, .inside c l _ (List.take_prefix n _) ?_ ?_⟩
      · rw [List.flatMap_cons, List.take_append_of_le_length (by omega)]
        rfl
      · rw [List.length_take]
        omega
      · rw [List.length_take, List.flatMap_nil, List.length_nil]
        omega

/-- **Cut at a length, the whole code words are the longest prefix that fits.** -/
theorem CutAt.longestPrefix {code : α → List β} {n : Nat} {p q : List α} {r : List β} (h : CutAt code n p q r) :
    LongestPrefix (fun l => (l.flatMap code).length ≤ n) (p ++ q) p := by
  refine ⟨List.prefix_append p q, ?_, fun p' hp' hfits => ?_⟩
  · cases h with
    | whole h => exact h
    | inside c q r hr hshort hlength => exact Nat.le.intro hlength
  · rcases List.prefix_or_prefix_of_prefix hp' (List.prefix_append p q) with hle | ⟨s, rfl⟩
    · exact hle
    · cases s with
      | nil =>
        exact ⟨[], by simp⟩
      | cons d s =>
        cases h with
        | whole h =>
          have hnil := List.prefix_nil.1 ((List.prefix_append_right_inj p).1 hp')
          cases hnil
        | inside c q r hr hshort hlength =>
          obtain ⟨rfl, -⟩ := List.cons_prefix_cons.1 ((List.prefix_append_right_inj p).1 hp')
          rw [List.flatMap_append, List.flatMap_cons, List.length_append, List.length_append] at hfits
          omega

/-! ## In chunks -/

/-- A machine that gives something at every letter. -/
def transduce (step : σ → α → List β × σ) : σ → List α → List β × σ
  | s, [] => ([], s)
  | s, a :: l =>
    let now := step s a
    let more := transduce step now.2 l
    (now.1 ++ more.1, more.2)

theorem transduce_append (step : σ → α → List β × σ) : ∀ (l m : List α) (s : σ), transduce step s (l ++ m) =
    ((transduce step s l).1 ++ (transduce step (transduce step s l).2 m).1, (transduce step (transduce step s l).2 m).2)
  | [], m, s => rfl
  | a :: l, m, s => by
    rw [List.cons_append, transduce, transduce, transduce_append step l m]
    simp only [List.append_assoc]

/-- What is read of a text, and the rest of it: read on with more, the rest gives what the whole would. -/
def Resumable (read : List α → List β × List α) : Prop :=
  ∀ x y, read (x ++ y) = ((read x).1 ++ (read ((read x).2 ++ y)).1, (read ((read x).2 ++ y)).2)

/-- Chunks read one after another, each behind what the one before left. -/
def readChunks (read : List α → List β × List α) : List α → List (List α) → List β × List α
  | rest, [] => ([], rest)
  | rest, chunk :: chunks =>
    let now := read (rest ++ chunk)
    let more := readChunks read now.2 chunks
    (now.1 ++ more.1, more.2)

theorem Resumable.idle {read : List α → List β × List α} (h : Resumable read) (x : List α) :
    read (read x).2 = ([], (read x).2) := by
  have hx := h x []
  rw [List.append_nil, List.append_nil] at hx
  have hout := congrArg Prod.fst hx
  have hrest := congrArg Prod.snd hx
  rw [List.self_eq_append_right] at hout
  exact Prod.ext hout hrest.symm

/-- **Chunks are read as the whole is.** -/
theorem Resumable.readChunks_eq {read : List α → List β × List α} (h : Resumable read) : ∀ (chunks : List (List α))
    (rest : List α), read rest = ([], rest) → readChunks read rest chunks = read (rest ++ chunks.flatten)
  | [], rest, hidle => by rw [List.flatten_nil, List.append_nil, hidle, readChunks]
  | chunk :: chunks, rest, hidle => by
    rw [readChunks, h.readChunks_eq chunks (read (rest ++ chunk)).2 (h.idle _), List.flatten_cons, ← List.append_assoc,
      h (rest ++ chunk)]

/-! ## At a mark that stands twice -/

section Marks

variable [DecidableEq α] {d : α}

/-- The letter before what the first part begins with. -/
def consHead (c : α) : List (List α) → List (List α)
  | [] => [[c]]
  | part :: parts => (c :: part) :: parts

/-- Split at the mark twice in a row, from left to right. -/
def splitDouble (d : α) : List α → List (List α)
  | [] => [[]]
  | [c] => [[c]]
  | c :: e :: l => if c = d ∧ e = d then [] :: splitDouble d l else consHead c (splitDouble d (e :: l))

/-- The parts before the last one are split off for good. -/
theorem splitDouble_append (x y : List α) : ∃ parts rest, splitDouble d x = parts ++ [rest] ∧
    splitDouble d (x ++ y) = parts ++ splitDouble d (rest ++ y) ∧ (parts = [] → rest = x) := by
  induction x using splitDouble.induct d with
  | case1 => exact ⟨[], [], rfl, rfl, fun _ => rfl⟩
  | case2 c => exact ⟨[], [c], rfl, rfl, fun _ => rfl⟩
  | case3 c e l hdouble ih =>
    obtain ⟨parts, rest, hx, hxy, -⟩ := ih
    refine ⟨[] :: parts, rest, ?_, ?_, fun h => by cases h⟩
    · rw [splitDouble, if_pos hdouble, hx]
      rfl
    · rw [List.cons_append, List.cons_append, splitDouble, if_pos hdouble, hxy]
      rfl
  | case4 c e l hsingle ih =>
    obtain ⟨parts, rest, hx, hxy, hrest⟩ := ih
    have hsplit : splitDouble d (c :: e :: l) = consHead c (splitDouble d (e :: l)) := by
      rw [splitDouble, if_neg hsingle]
    have hsplit' : splitDouble d (c :: e :: l ++ y) = consHead c (splitDouble d (e :: l ++ y)) := by
      rw [List.cons_append, List.cons_append, splitDouble, if_neg hsingle]
    cases parts with
    | nil =>
      obtain rfl := hrest rfl
      refine ⟨[], c :: e :: l, ?_, rfl, fun _ => rfl⟩
      rw [hsplit, hx]
      rfl
    | cons part parts =>
      refine ⟨(c :: part) :: parts, rest, ?_, ?_, fun h => by cases h⟩
      · rw [hsplit, hx]
        rfl
      · rw [hsplit', hxy]
        rfl

/-- The parts that are complete, and what follows the last separator. -/
def splitOff (d : α) (l : List α) : List (List α) × List α :=
  ((splitDouble d l).dropLast, (splitDouble d l).getLast?.getD [])

theorem resumable_splitOff (d : α) : Resumable (splitOff d) := by
  intro x y
  obtain ⟨parts, rest, hx, hxy, -⟩ := splitDouble_append (d := d) x y
  obtain ⟨parts', rest', hy, -, -⟩ := splitDouble_append (d := d) (rest ++ y) []
  have hleft : splitOff d x = (parts, rest) := by
    unfold splitOff
    rw [hx, List.dropLast_concat, List.getLast?_concat]
    rfl
  rw [hleft]
  unfold splitOff
  rw [hxy, hy, ← List.append_assoc, List.dropLast_concat, List.dropLast_concat, List.getLast?_concat, List.getLast?_concat]

/-- The mark does not stand twice in a row. -/
def Single (d : α) (l : List α) : Prop := l.IsChain fun a b => ¬ (a = d ∧ b = d)

/-- A part is split off whole where the mark does not stand twice in it, the separator's first included. -/
theorem splitDouble_part {l : List α} : ∀ {part : List α}, Single d (part ++ [d]) →
    splitDouble d (part ++ d :: d :: l) = part :: splitDouble d l
  | [], _ => by rw [List.nil_append, splitDouble, if_pos ⟨rfl, rfl⟩]
  | [c], h => by
    have hc : ¬ (c = d ∧ d = d) := (List.isChain_cons_cons.1 h).1
    rw [List.cons_append, List.nil_append, splitDouble, if_neg hc, splitDouble, if_pos ⟨rfl, rfl⟩]
    rfl
  | c :: e :: part, h => by
    obtain ⟨hc, hrest⟩ := List.isChain_cons_cons.1 h
    have hpart : splitDouble d (e :: part ++ d :: d :: l) = (e :: part) :: splitDouble d l := splitDouble_part hrest
    rw [List.cons_append, List.cons_append, splitDouble, if_neg hc, ← List.cons_append, hpart]
    rfl

theorem splitOff_parts {parts : List (List α)} (h : ∀ part ∈ parts, Single d (part ++ [d])) :
    splitOff d (parts.flatMap fun part => part ++ [d, d]) = (parts, []) := by
  have hsplit : splitDouble d (parts.flatMap fun part => part ++ [d, d]) = parts ++ [[]] := by
    induction parts with
    | nil => rfl
    | cons part parts ih =>
      rw [List.flatMap_cons, List.append_assoc]
      have hpart : splitDouble d (part ++ d :: d :: parts.flatMap fun part => part ++ [d, d]) = _ :=
        splitDouble_part (h part List.mem_cons_self)
      rw [ih fun p hp => h p (List.mem_cons_of_mem part hp)] at hpart
      exact hpart
  unfold splitOff
  rw [hsplit, List.dropLast_concat, List.getLast?_concat]
  rfl

end Marks

end Lib
