import SafeSend.Jobs.Queue
import SafeSend.Lib.Cuts
import SafeSend.Utf8
/-!
# The error cap

What `_cap` keeps of an error's detail: cut at a byte, wherever that falls in a character, and read back without what is
left of one.
-/
namespace SafeSend
namespace Queue

open Lib

/-- The text takes no more bytes than the cap. -/
def Fits (l : List Char) : Prop := (l.flatMap Text.encodeChar).length ≤ MAX_ERROR_DETAIL_BYTES

/-- **A text cut at any byte reads back as its longest prefix that fits there.** -/
theorem decode_take (l : List Char) (n : Nat) : LongestPrefix (fun l => (l.flatMap Text.encodeChar).length ≤ n) l
    (Text.decodeFrom none ((l.flatMap Text.encodeChar).take n)) := by
  obtain ⟨p, q, r, rfl, htake, hcut⟩ := take_code Text.encodeChar l n
  have hpiece : Text.decodeFrom none r = [] := by
    cases hcut with
    | whole h => rfl
    | inside c q r hr hshort hlength => exact (Text.spells_encodeChar c).decodeFrom_short hr hshort
  rw [htake, Text.decodeFrom_flatMap, hpiece, List.append_nil]
  exact hcut.longestPrefix

theorem cap_of_fits {detail : String} (h : Fits detail.toList) : cap detail = detail := if_pos h

theorem longestPrefix_cap (detail : String) : LongestPrefix Fits detail.toList (cap detail).toList := by
  by_cases h : Fits detail.toList
  · rw [cap_of_fits h]
    exact ⟨List.prefix_refl _, h, fun p hp _ => hp⟩
  · have hcap : (cap detail).toList =
        Text.decodeFrom none ((detail.toList.flatMap Text.encodeChar).take MAX_ERROR_DETAIL_BYTES) := by
      have hcut : cap detail = Text.decodeIgnore ((Text.encode detail).take MAX_ERROR_DETAIL_BYTES) := if_neg h
      rw [hcut, Text.decodeIgnore, String.toList_ofList]
      rfl
    rw [hcap]
    exact decode_take detail.toList MAX_ERROR_DETAIL_BYTES

/-- **The cap keeps the longest prefix that fits**, so what fits already is left alone, and so is what was capped. -/
theorem cap_longest (detail : String) : LongestPrefix Fits detail.toList (cap detail).toList ∧
    (Fits detail.toList → cap detail = detail) ∧ cap (cap detail) = cap detail :=
  ⟨longestPrefix_cap detail, cap_of_fits, cap_of_fits (longestPrefix_cap detail).prefix_fits⟩

end Queue
end SafeSend
