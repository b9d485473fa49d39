import SafeSend.Lib.JsonText
/-!
# JSON values

`json.dumps` of any value, with a blank behind each comma and colon and everything outside printable ASCII escaped.
-/
namespace Lib
namespace JsonText

/-- A string of code points, lone surrogates among them. -/
abbrev Points := List (Fin 0x110000)

/-- What a float is written as: its digits, or `NaN`, `Infinity`. -/
structure FloatText where
  text : List Char
  plain : ∀ c ∈ text, c ∈ "0123456789.+-eNaInfity".toList

inductive Json
  | null
  | bool (b : Bool)
  | int (n : Int)
  | float (x : FloatText)
  | str (s : Points)
  | arr (items : List Json)
  | obj (fields : List (Points × Json))

def escapePoint (n : Fin 0x110000) : List Char :=
  if n.val.isValidChar then escape (Char.ofNat n) else unitEscape n

def quotedPoints (s : Points) : List Char := '"' :: (s.flatMap escapePoint ++ ['"'])

mutual

def Json.dump : Json → List Char
  | .null => "null".toList
  | .bool true => "true".toList
  | .bool false => "false".toList
  | .int n => decimal n
  | .float x => x.text
  | .str s => quotedPoints s
  | .arr items => '[' :: (dumpItems items ++ [']'])
  | .obj fields => '{' :: (dumpFields fields ++ ['}'])

def dumpItems : List Json → List Char
  | [] => []
  | [item] => item.dump
  | item :: items => item.dump ++ ", ".toList ++ dumpItems items

def dumpFields : List (Points × Json) → List Char
  | [] => []
  | [(key, value)] => quotedPoints key ++ ": ".toList ++ value.dump
  | (key, value) :: fields => quotedPoints key ++ ": ".toList ++ value.dump ++ ", ".toList ++ dumpFields fields

end

/-! ## What is written is printable ASCII -/

def Printable (c : Char) : Prop := 32 ≤ c.toNat ∧ c.toNat ≤ 126

instance (c : Char) : Decidable (Printable c) := inferInstanceAs (Decidable (_ ∧ _))

theorem printable_digit {d : Nat} (h : d < 16) : Printable (digitChar d) := by
  have hall : ∀ d : Fin 16, Printable (digitChar d) := by decide
  exact hall ⟨d, h⟩

theorem printable_unitEscape {n : Nat} : ∀ c ∈ unitEscape n, Printable c := by
  intro c hc
  unfold unitEscape at hc
  rw [List.mem_cons, List.mem_cons] at hc
  rcases hc with rfl | rfl | hc
  · decide
  · decide
  · obtain ⟨d, hd, rfl⟩ := mem_numeral (by decide) (by decide) hc
    exact printable_digit hd

theorem printable_escape (c : Char) : ∀ d ∈ escape c, Printable d := by
  have hpair : ∀ d ∈ [['\\', '"'], ['\\', '\\'], ['\\', 'n'], ['\\', 'r'], ['\\', 't'], ['\\', 'f'], ['\\', 'b']],
      ∀ e ∈ d, Printable e := by decide
  unfold escape
  simp only
  split
  · exact hpair _ (by simp)
  split
  · exact hpair _ (by simp)
  split
  · exact hpair _ (by simp)
  split
  · exact hpair _ (by simp)
  split
  · exact hpair _ (by simp)
  split
  · exact hpair _ (by simp)
  split
  · exact hpair _ (by simp)
  split
  · rename_i hrange
    intro d hd
    rw [List.mem_singleton.1 hd]
    exact hrange
  split
  · exact printable_unitEscape
  · intro d hd
    rcases List.mem_append.1 hd with hd | hd
    · exact printable_unitEscape d hd
    · exact printable_unitEscape d hd

theorem printable_quoted (s : Points) : ∀ c ∈ quotedPoints s, Printable c := by
  intro c hc
  unfold quotedPoints at hc
  rw [List.mem_cons, List.mem_append, List.mem_flatMap, List.mem_singleton] at hc
  rcases hc with rfl | ⟨n, -, hc⟩ | rfl
  · decide
  · unfold escapePoint at hc
    split at hc
    · exact printable_escape _ c hc
    · exact printable_unitEscape c hc
  · decide

theorem printable_decimal (n : Int) : ∀ c ∈ decimal n, Printable c := by
  have hdigits : ∀ c ∈ Nat.toDigits 10 n.natAbs, Printable c := by
    intro c hc
    have hdigit := Nat.isDigit_of_mem_toDigits (by decide) (by decide) hc
    obtain ⟨hlo, hhi⟩ := Char.isDigit_iff_toNat.1 hdigit
    exact ⟨Nat.le_trans (by decide) hlo, Nat.le_trans hhi (by decide)⟩
  intro c hc
  unfold decimal at hc
  split at hc
  · rcases List.mem_cons.1 hc with rfl | hc
    · decide
    · exact hdigits c hc
  · exact hdigits c hc

mutual

theorem Json.printable : ∀ (j : Json), ∀ c ∈ j.dump, Printable c
  | .null => by unfold Json.dump; decide
  | .bool true => by unfold Json.dump; decide
  | .bool false => by unfold Json.dump; decide
  | .int n => by unfold Json.dump; exact printable_decimal n
  | .float x => by
    unfold Json.dump
    have hall : ∀ c ∈ "0123456789.+-eNaInfity".toList, Printable c := by decide
    exact fun c hc => hall c (x.plain c hc)
  | .str s => by unfold Json.dump; exact printable_quoted s
  | .arr items => by
    unfold Json.dump
    intro c hc
    rw [List.mem_cons, List.mem_append, List.mem_singleton] at hc
    rcases hc with rfl | hc | rfl
    · decide
    · exact printable_items items c hc
    · decide
  | .obj fields => by
    unfold Json.dump
    intro c hc
    rw [List.mem_cons, List.mem_append, List.mem_singleton] at hc
    rcases hc with rfl | hc | rfl
    · decide
    · exact printable_fields fields c hc
    · decide

theorem printable_items : ∀ (items : List Json), ∀ c ∈ dumpItems items, Printable c
  | [] => by
    unfold dumpItems
    exact fun c hc => absurd hc List.not_mem_nil
  | [item] => by
    unfold dumpItems
    exact item.printable
  | item :: next :: items => by
    unfold dumpItems
    intro c hc
    rw [List.mem_append, List.mem_append] at hc
    rcases hc with (hc | hc) | hc
    · exact item.printable c hc
    · have hall : ∀ c ∈ ", ".toList, Printable c := by decide
      exact hall c hc
    · exact printable_items (next :: items) c hc

theorem printable_fields : ∀ (fields : List (Points × Json)), ∀ c ∈ dumpFields fields, Printable c
  | [] => by
    unfold dumpFields
    exact fun c hc => absurd hc List.not_mem_nil
  | [(key, value)] => by
    unfold dumpFields
    intro c hc
    rw [List.mem_append, List.mem_append] at hc
    rcases hc with (hc | hc) | hc
    · exact printable_quoted key c hc
    · have hall : ∀ c ∈ ": ".toList, Printable c := by decide
      exact hall c hc
    · exact value.printable c hc
  | (key, value) :: next :: fields => by
    unfold dumpFields
    intro c hc
    rw [List.mem_append, List.mem_append, List.mem_append, List.mem_append] at hc
    rcases hc with (((hc | hc) | hc) | hc) | hc
    · exact printable_quoted key c hc
    · have hall : ∀ c ∈ ": ".toList, Printable c := by decide
      exact hall c hc
    · exact value.printable c hc
    · have hall : ∀ c ∈ ", ".toList, Printable c := by decide
      exact hall c hc
    · exact printable_fields (next :: fields) c hc

end

end JsonText
end Lib
