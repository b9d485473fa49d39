import Mathlib.Data.List.TakeWhile
import SafeSend.Lib.Trace
import SafeSend.Search.Accepted
import SafeSend.Search.Slack
/-!
# What becomes of a source's hits

What the boundary refuses of a source's results, and whether the rest can be ranked: Slack's here, Gmail's and the web's
beside their adapters.  A result is built with a text wherever the card has one, so what is refused has no link or no id.
-/
namespace SafeSend

namespace Text

theorem blank_of_mem {s : String} {c : Char} (hc : c ∈ s.toList) (hs : isSpace c = false) : blank s = false := by
  refine Bool.eq_false_iff.2 fun h => ?_
  unfold blank strip at h
  rw [String.isEmpty_iff, ← String.toList_eq_nil_iff, String.toList_ofList, List.reverse_eq_nil_iff,
    List.dropWhile_eq_nil_iff] at h
  have hall : ∀ d ∈ s.toList.dropWhile isSpace, isSpace d = true := fun d hd => h d (List.mem_reverse.2 hd)
  have hnil : s.toList.dropWhile isSpace = [] := by
    by_contra hne
    have hhead := List.head_dropWhile_not isSpace hne
    rw [hall _ (List.head_mem hne)] at hhead
    cases hhead
  rw [List.dropWhile_eq_nil_iff.1 hnil c hc] at hs
  cases hs

/-- A stripped text begins with what is no space. -/
theorem strip_head {s : String} (h : strip s ≠ "") : ∃ c l, (strip s).toList = c :: l ∧ isSpace c = false := by
  unfold strip at h ⊢
  rw [Ne, ← String.toList_eq_nil_iff, String.toList_ofList, List.reverse_eq_nil_iff] at h
  rw [String.toList_ofList]
  have hprefix : ((s.toList.dropWhile isSpace).reverse.dropWhile isSpace).reverse <+: s.toList.dropWhile isSpace := by
    rw [← List.reverse_suffix, List.reverse_reverse]
    exact List.dropWhile_suffix _
  generalize hkept : ((s.toList.dropWhile isSpace).reverse.dropWhile isSpace).reverse = kept at hprefix ⊢
  cases kept with
  | nil => exact absurd (List.reverse_eq_nil_iff.1 hkept) h
  | cons c l =>
    obtain ⟨rest, hrest⟩ := hprefix
    have hne : s.toList.dropWhile isSpace ≠ [] := by
      rw [← hrest]
      exact List.cons_ne_nil _ _
    refine ⟨c, l, rfl, ?_⟩
    have hhead := List.head_dropWhile_not isSpace hne
    simpa only [← hrest, List.cons_append, List.head_cons] using hhead

theorem blank_strip {s : String} (h : strip s ≠ "") : blank (strip s) = false := by
  obtain ⟨c, l, hl, hc⟩ := strip_head h
  exact blank_of_mem (by rw [hl]; exact List.mem_cons_self) hc

end Text

namespace Search

open Lib
open Lib.Prog (Traced)

variable {F : Arithmetic}

/-- A timestamp the arithmetic reads, with an offset. -/
def Aware (F : Arithmetic) (t : String) : Prop := ∃ micros, F.fromisoformat t = some (.aware micros)

def sampleTime : String := "2026-07-21T09:12:33+00:00"

theorem aware_sampleTime : Aware readingDeployment.arithmetic sampleTime := ⟨63920308353000000, by decide +kernel⟩

/-- The results are ranked, each of them. -/
def Ranks (F : Arithmetic) (now : Int) (l : List Result) : Prop :=
  ∃ ranked, rankWithinSource F l now = .ok ranked ∧ ranked.map Ranked.result = l

theorem ranks_iff {now : Int} {l : List Result} : Ranks F now l ↔ ∀ r ∈ l, r.naive F = false := by
  constructor
  · rintro ⟨ranked, hranked, -⟩ r hr
    refine Bool.eq_false_iff.2 fun hnaive => ?_
    have herror : rankWithinSource F l now = .error mixedOffsets := rankFrom_naive now 1 hr hnaive
    rw [herror] at hranked
    cases hranked
  · exact fun h => rankFrom_ok now 1 h

theorem naive_of_aware {r : Result} (h : ∀ t, r.timestamp = some t → Aware F t) : r.naive F = false := by
  unfold Result.naive Result.occurredAt
  cases ht : r.timestamp with
  | none => rfl
  | some t =>
    obtain ⟨micros, hread⟩ := h t ht
    rw [Option.bind_some, hread]

theorem normalized_iff {r : Result} : normalized F r = true ↔ Text.blank r.source = false ∧ Text.blank r.id = false ∧
    Text.blank r.title = false ∧ Text.blank r.snippet = false ∧ Text.blank r.url = false ∧
    ∀ t, r.timestamp = some t → (F.fromisoformat t).isSome = true := by
  unfold normalized
  rw [Bool.and_eq_true, List.all_eq_true, Option.all_eq_true]
  simp only [List.forall_mem_cons, List.not_mem_nil, false_imp_iff, implies_true, and_true, Bool.not_eq_true', and_assoc]

namespace Slack

open Providers (Json Fields Response)
open Send.Slack (SlackMessage call)

/-- A card says something in every place but its link. -/
structure Shown (F : Arithmetic) (r : Result) : Prop where
  source : Text.blank r.source = false
  id : Text.blank r.id = false
  title : Text.blank r.title = false
  snippet : Text.blank r.snippet = false
  timestamp : ∀ t, r.timestamp = some t → Aware F t

theorem Shown.normalized {r : Result} (h : Shown F r) : normalized F r = !Text.blank r.url := by
  rw [Bool.eq_iff_iff, normalized_iff, Bool.not_eq_true']
  refine ⟨fun hall => hall.2.2.2.2.1, fun hurl => ⟨h.source, h.id, h.title, h.snippet, hurl, fun t ht => ?_⟩⟩
  obtain ⟨micros, hread⟩ := h.timestamp t ht
  rw [hread]
  rfl

theorem isSpace_of_isLineBreak {c : Char} (h : isLineBreak c = true) : Text.isSpace c = true := by
  unfold isLineBreak at h
  unfold Text.isSpace
  simp only [Bool.or_eq_true, Bool.and_eq_true, decide_eq_true_eq, beq_iff_eq] at h ⊢
  omega

/-- The first line of a text, or a placeholder. -/
theorem blank_firstLine (text : String) : Text.blank (firstLine text) = false := by
  unfold firstLine
  by_cases hb : Text.blank text = true
  · rw [if_pos hb]
    decide
  · have hstrip : Text.strip text ≠ "" := fun he => hb (String.isEmpty_iff.2 he)
    obtain ⟨c, l, hl, hc⟩ := Text.strip_head hstrip
    have hbreak : isLineBreak c = false := Bool.eq_false_iff.2 fun h => by
      rw [isSpace_of_isLineBreak h] at hc
      cases hc
    rw [if_neg hb, hl, List.takeWhile_cons, hbreak, Bool.not_false, if_pos rfl]
    dsimp only
    split
    next => exact Text.blank_of_mem (by rw [String.toList_ofList]; exact List.mem_cons_self) hc
    next =>
      refine Text.blank_of_mem ?_ hc
      rw [String.toList_append, String.toList_ofList]
      exact List.mem_append_left _ List.mem_cons_self

theorem blank_title (channel text : String) :
    Text.blank (if channel = "" then firstLine text else channel ++ ": " ++ firstLine text) = false := by
  have hmark : ':' ∈ (": ").toList := by decide
  by_cases hc : channel = ""
  · rw [if_pos hc]
    exact blank_firstLine text
  · rw [if_neg hc]
    refine Text.blank_of_mem (c := ':') ?_ (by decide)
    rw [String.toList_append, String.toList_append]
    exact List.mem_append_left _ (List.mem_append_right _ hmark)

theorem blank_snippet (text : String) :
    Text.blank (if Text.strip text = "" then firstLine (Text.strip text) else Text.strip text) = false := by
  by_cases ht : Text.strip text = ""
  · rw [if_pos ht]
    exact blank_firstLine _
  · rw [if_neg ht]
    exact Text.blank_strip ht

theorem shown_resultOf (m : Message) {timestamp : Option String} (ht : ∀ t, timestamp = some t → Aware F t) :
    Shown F (resultOf m timestamp) where
  source := by
    show Text.blank SOURCE = false
    decide
  id := by
    have hmark : ':' ∈ (":").toList := by decide
    refine Text.blank_of_mem (c := ':') ?_ (by decide)
    unfold resultOf
    rw [String.toList_append, String.toList_append]
    exact List.mem_append_left _ (List.mem_append_right _ hmark)
  title := blank_title _ _
  snippet := blank_snippet _
  timestamp := ht

/-- What the platform's `gmtime` comes to is read, with an offset. -/
def Stamps (F : Arithmetic) (l : List (Sigma Op.Ans)) : Prop :=
  ∀ ts text, (⟨.fromtimestamp ts, .iso text⟩ : Sigma Op.Ans) ∈ l → Aware F text

theorem Stamps.left {l₁ l₂ : List (Sigma Op.Ans)} (h : Stamps F (l₁ ++ l₂)) : Stamps F l₁ :=
  fun ts text hm => h ts text (List.mem_append_left _ hm)

theorem Stamps.right {l₁ l₂ : List (Sigma Op.Ans)} (h : Stamps F (l₁ ++ l₂)) : Stamps F l₂ :=
  fun ts text hm => h ts text (List.mem_append_right _ hm)

theorem shown_toResult {m : Message} {l : List (Sigma Op.Ans)} {r : Result} (hl : Stamps F l)
    (h : Traced (toResult m) l (.ok r)) : Shown F r := by
  obtain ⟨stamped, l', rfl, hk⟩ := Prog.traced_op h
  cases stamped with
  | iso text =>
    obtain rfl := Except.ok.inj (Prog.traced_ret hk).2
    refine shown_resultOf m fun t ht => ?_
    obtain rfl := Option.some.inj ht
    exact hl m.ts text List.mem_cons_self
  | valueError =>
    obtain rfl := Except.ok.inj (Prog.traced_ret hk).2
    exact shown_resultOf m fun t ht => by cases ht
  | overflow => cases (Prog.traced_ret hk).2
  | os detail => cases (Prog.traced_ret hk).2

theorem shown_toResults : ∀ {matches_ : List Message} {l : List (Sigma Op.Ans)} {raw : List Result}, Stamps F l →
    Traced (toResults matches_) l (.ok raw) → ∀ r ∈ raw, Shown F r
  | [], l, raw, _, h => by
    obtain rfl := Except.ok.inj (Prog.traced_ret h).2
    exact fun r hr => absurd hr List.not_mem_nil
  | m :: matches_, l, raw, hl, h => by
    obtain ⟨first, l₁, l₂, rfl, hfirst, h⟩ := Prog.traced_bind h
    cases first with
    | error e => cases (Prog.traced_ret h).2
    | ok r =>
      obtain ⟨rest, l₃, l₄, rfl, hrest, h⟩ := Prog.traced_bind h
      cases rest with
      | error e => cases (Prog.traced_ret h).2
      | ok rest =>
        obtain rfl := Except.ok.inj (Prog.traced_ret h).2
        intro q hq
        rcases List.mem_cons.1 hq with rfl | hq
        · exact shown_toResult hl.left hfirst
        · exact shown_toResults hl.right.left hrest q hq

def Scanned.results : Scanned → List Result
  | more results => results
  | enough results => results

variable {casefold : String → String} {limit : Nat} {deadline : Int} {query : String}

theorem shown_scanMessages {channelId name : String} : ∀ {history : List SlackMessage} {results : List Result}
    {l : List (Sigma Op.Ans)} {scanned : Scanned}, (∀ r ∈ results, Shown F r) → Stamps F l →
    Traced (scanMessages casefold limit query channelId name history results) l (.ok scanned) →
    ∀ r ∈ scanned.results, Shown F r
  | [], results, l, scanned, hres, _, h => by
    obtain rfl := Except.ok.inj (Prog.traced_ret h).2
    exact hres
  | m :: history, results, l, scanned, hres, hl, h => by
    unfold scanMessages at h
    split at h
    next =>
      obtain ⟨answer, l₁, l₂, rfl, -, h⟩ := Prog.traced_bind h
      split at h
      next => cases (Prog.traced_ret h).2
      next link hlink =>
        split at h
        next =>
          obtain ⟨first, l₃, l₄, rfl, hfirst, h⟩ := Prog.traced_bind h
          cases first with
          | error e => cases (Prog.traced_ret h).2
          | ok r =>
            have hnew : ∀ q ∈ results ++ [r], Shown F q := by
              intro q hq
              rcases List.mem_append.1 hq with hq | hq
              · exact hres q hq
              · rw [List.mem_singleton.1 hq]
                exact shown_toResult hl.right.left hfirst
            dsimp only at h
            split at h
            next =>
              obtain rfl := Except.ok.inj (Prog.traced_ret h).2
              exact hnew
            next => exact shown_scanMessages hnew hl.right.right h
        next => exact shown_scanMessages hres hl.right h
    next => exact shown_scanMessages hres hl h

theorem shown_scanChannels : ∀ {channels : List Json} {results : List Result} {l : List (Sigma Op.Ans)} {raw : List Result},
    (∀ r ∈ results, Shown F r) → Stamps F l →
    Traced (scanChannels casefold limit deadline query channels results) l (.ok raw) → ∀ r ∈ raw, Shown F r
  | [], results, l, raw, hres, _, h => by
    obtain rfl := Except.ok.inj (Prog.traced_ret h).2
    exact hres
  | channel :: channels, results, l, raw, hres, hl, h => by
    cases channel with
    | obj d text =>
      unfold scanChannels at h
      dsimp only at h
      split at h
      next => exact shown_scanChannels hres hl h
      next =>
        obtain ⟨now, l₁, l₂, rfl, -, h⟩ := Prog.traced_bind h
        split at h
        next =>
          obtain rfl := Except.ok.inj (Prog.traced_ret h).2
          exact hres
        next =>
          obtain ⟨answer, l₃, l₄, rfl, -, h⟩ := Prog.traced_bind h
          split at h
          next => exact shown_scanChannels hres hl.right.right h
          next => cases (Prog.traced_ret h).2
          next history hhistory =>
            obtain ⟨scanned, l₅, l₆, rfl, hscanned, h⟩ := Prog.traced_bind h
            cases scanned with
            | error e => cases (Prog.traced_ret h).2
            | ok scanned =>
              have hnew := shown_scanMessages hres hl.right.right.left hscanned
              cases scanned with
              | enough results' =>
                obtain rfl := Except.ok.inj (Prog.traced_ret h).2
                exact hnew
              | more results' => exact shown_scanChannels hnew hl.right.right.right h
    | _ => cases (Prog.traced_ret h).2

theorem shown_search {l : List (Sigma Op.Ans)} {found : Found} (hl : Stamps F l)
    (h : Traced (search casefold limit deadline query) l (.ok found)) : ∀ r ∈ found.raw, Shown F r := by
  obtain ⟨answer, l₁, l₂, rfl, -, h⟩ := Prog.traced_bind h
  split at h
  next e he =>
    split at h
    next =>
      obtain ⟨raw, l₃, l₄, rfl, hraw, h⟩ := Prog.traced_bind h
      cases raw with
      | error e => cases (Prog.traced_ret h).2
      | ok raw =>
        obtain rfl := Except.ok.inj (Prog.traced_ret h).2
        obtain ⟨channels, l₅, l₆, rfl, -, hscan⟩ := Prog.traced_bind hraw
        split at hscan
        next => cases (Prog.traced_ret hscan).2
        next => exact shown_scanChannels (fun r hr => absurd hr List.not_mem_nil) hl.right.left.right hscan
    next => cases (Prog.traced_ret h).2
  next matches_ hmatches =>
    obtain ⟨raw, l₃, l₄, rfl, hraw, h⟩ := Prog.traced_bind h
    cases raw with
    | error e => cases (Prog.traced_ret h).2
    | ok raw =>
      obtain rfl := Except.ok.inj (Prog.traced_ret h).2
      exact shown_toResults hl.right.left hraw

/-- **Slack's hits are all ranked, and only one whose link is blank is dropped**, on the search and on the scan. -/
theorem messages_kept {l : List (Sigma Op.Ans)} {found : Found} (hl : Stamps F l)
    (h : Traced (search casefold limit deadline query) l (.ok found)) (now : Int) :
    found.raw.filter (normalized F) = found.raw.filter (fun r => !Text.blank r.url) ∧
      Ranks F now (found.raw.filter (normalized F)) := by
  have hshown := shown_search hl h
  refine ⟨List.filter_congr fun r hr => (hshown r hr).normalized, ranks_iff.2 fun r hr => ?_⟩
  exact naive_of_aware (hshown r (List.mem_filter.1 hr).1).timestamp

def matchItem (permalink : String) : Json := .obj [("channel", .obj [("id", .str "C1"), ("name", .str "general")] ""),
  ("ts", .str "1784625153"), ("text", .str "the launch"), ("permalink", .str permalink)] ""

def PERMALINK : String := "https://acme.example/archives/C1/p1"

/-- A search that is answered with two messages, the second with a blank link. -/
def searched : List (Sigma Op.Ans) :=
  [⟨.call .searchMessages .user [("query", "launch"), ("count", toString DEFAULT_LIMIT)], .ok {
      status := 200
      body := .json (.obj [("ok", .bool true),
        ("messages", .obj [("matches", .arr [matchItem PERMALINK, matchItem " "] "")] "")] "") }⟩,
    ⟨.fromtimestamp "1784625153", .iso sampleTime⟩,
    ⟨.fromtimestamp "1784625153", .iso sampleTime⟩]

theorem messages_kept_two : ∃ found, Traced (search id DEFAULT_LIMIT 1 "launch") searched (.ok found) ∧
    found.raw.map Result.url = [PERMALINK, " "] ∧
    found.raw.filter (normalized readingDeployment.arithmetic) = found.raw.filter (fun r => !Text.blank r.url) ∧
    Ranks readingDeployment.arithmetic 0 (found.raw.filter (normalized readingDeployment.arithmetic)) := by
  have htraced : Traced (search id DEFAULT_LIMIT 1 "launch") searched (.ok ⟨_, none⟩) := .op (.op (.op (.ret _)))
  have hstamps : Stamps readingDeployment.arithmetic searched := by
    intro ts text hm
    rcases List.mem_cons.1 hm with he | hm
    · cases he
    rcases List.mem_cons.1 hm with he | hm
    · cases he
      exact aware_sampleTime
    · cases List.mem_singleton.1 hm
      exact aware_sampleTime
  exact ⟨_, htraced, rfl, messages_kept hstamps htraced 0⟩

end Slack
end Search
end SafeSend
