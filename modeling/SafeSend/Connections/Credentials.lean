import SafeSend.Connections.KeyVersions
/-!
# Credentials

What a token column is for: to hold the last token its provider gave for it, until the owner disconnects.  The history
beside the system notes that token; a provider's empty string is no token, but the store takes it for one.
-/
namespace SafeSend
namespace Connections

open Lib Crypto
open Text (Bytes)

variable {aes : AESGCM} {w u : World} {a : Action}

/-- By connection and column, the last non-empty token a payload carried since the last disconnect. -/
abbrev LastTokens := Nat → TokenColumn → Option String

/-- A value, if it is a token. -/
def Json.token : Json → Option String
  | .str s => if s = "" then none else some s
  | _ => none

def noteTokens (aes : AESGCM) (w : World) (a : Action) (last : LastTokens) : LastTokens := fun n column =>
  if cuts w n a then none
  else
    match delivery aes w a with
    | some (m, tokens) => if m = n then (tokens column).token.or (last n column) else last n column
    | none => last n column

/-- The system, with the tokens that were given noted beside it. -/
def witnessed (aes : AESGCM) (first : Keyring) : Machine (World × LastTokens) Action :=
  (system aes first).withHistory (noteTokens aes) fun _ _ => none

/-- **Every column decrypts to the last token given for it**, and is empty where none was. -/
def Intact (aes : AESGCM) (w : World) (last : LastTokens) : Prop := ∀ n c column, w.connections.get n = some c →
  match last n column with
  | none => c.ct column = none
  | some s => ∃ blob, c.ct column = some blob ∧ decrypt aes blob (aad n c.provider column) w.keyring = .ok s

/-- The step stores no empty string as a token. -/
def noEmptyToken (aes : AESGCM) (w : World) (a : Action) : Bool :=
  match delivery aes w a with
  | none => true
  | some (_, tokens) => [TokenColumn.accessTokenCt, .refreshTokenCt, .botTokenCt].all fun column =>
    match tokens column with
    | .str s => s != ""
    | _ => true

theorem noEmptyToken_str {n : Nat} {tokens : TokenColumn → Json} (h : noEmptyToken aes w a = true)
    (hd : delivery aes w a = some (n, tokens)) {column : TokenColumn} {s : String} (hs : tokens column = .str s) :
    (tokens column).token = some s := by
  have hmem : column ∈ [TokenColumn.accessTokenCt, .refreshTokenCt, .botTokenCt] := by cases column <;> decide
  unfold noEmptyToken at h
  rw [hd] at h
  have hne := List.all_eq_true.1 h column hmem
  simp only [hs, bne_iff_ne] at hne
  rw [hs, Json.token, if_neg hne]

/-- A column holds what was noted for it. -/
def Keeps (aes : AESGCM) (w : World) (n : Nat) (provider : ProviderKind) (column : TokenColumn) :
    Option Bytes → Option String → Prop
  | none, none => True
  | some blob, some s => Holds aes w n provider column blob s
  | _, _ => False

theorem Keeps.step {n : Nat} {provider : ProviderKind} {column : TokenColumn} {b : Option Bytes} {s : Option String}
    (hk : Keeps aes w n provider column b s) (h : step aes w a = some u) : Keeps aes u n provider column b s := by
  cases b with
  | none =>
    cases s with
    | none => trivial
    | some s => exact hk
  | some blob =>
    cases s with
    | none => exact hk
    | some s => exact Holds.step hk h

/-- The invariant: every row's columns hold what was noted, and nothing is noted where there is no row. -/
structure Noted (aes : AESGCM) (w : World) (last : LastTokens) : Prop where
  growing : Growing w
  attached : Attached w
  blank : ∀ n, w.connections.get n = none → ∀ column, last n column = none
  keeps : ∀ n c column, w.connections.get n = some c →
    Keeps aes w n c.provider column (c.ct column) (last n column)

/-- What is delivered is delivered to a row. -/
theorem delivered_get (ha : Attached w) (h : step aes w a = some u) {n : Nat} {tokens : TokenColumn → Json}
    (hd : delivery aes w a = some (n, tokens)) : ∃ c, u.connections.get n = some c := by
  cases a with
  | authorize e userId provider payload r => exact authorized_get hd h
  | answer p e answer =>
    cases answer with
    | error x => cases hd
    | ok payload =>
      simp only [delivery] at hd
      split at hd
      next m kind connection refreshToken hp =>
        split at hd
        · cases hd
        · split at hd
          · cases hd
            obtain ⟨c, hc, -⟩ := ha _ _ _ _ _ hp
            obtain ⟨c', hc', -⟩ := step_get h hc
            exact ⟨c', hc'⟩
          · cases hd
      · cases hd
  | _ => cases hd

section
variable {last : LastTokens} {n : Nat} {provider : ProviderKind} {column : TokenColumn} {old new : Option Bytes}

/-- A connection that is given no token keeps its notes. -/
theorem noteTokens_kept (hc : cuts w n a = false)
    (hd : ∀ tokens, delivery aes w a = some (n, tokens) → tokens column = .null) :
    noteTokens aes w a last n column = last n column := by
  simp only [noteTokens, hc, Bool.false_eq_true, if_false]
  split
  next m tokens hdel =>
    by_cases hmn : m = n
    · subst hmn
      rw [if_pos rfl, hd tokens hdel]
      rfl
    · rw [if_neg hmn]
  next => rfl

/-- No step notes a token where there is none and nothing is delivered. -/
theorem noteTokens_blank (hlast : last n column = none) (hd : ∀ tokens, delivery aes w a ≠ some (n, tokens)) :
    noteTokens aes w a last n column = none := by
  cases hc : cuts w n a with
  | true => simp only [noteTokens, hc, if_true]
  | false => rw [noteTokens_kept hc fun tokens ht => absurd ht (hd tokens), hlast]

theorem cuts_of_delivery {tokens : TokenColumn → Json} (hd : delivery aes w a = some (n, tokens)) : cuts w n a = false := by
  cases a with
  | disconnect id userId => cases hd
  | _ => rfl

theorem noteTokens_written {tokens : TokenColumn → Json} {s : String} (hok : noEmptyToken aes w a = true)
    (hd : delivery aes w a = some (n, tokens)) (ht : tokens column = .str s) :
    noteTokens aes w a last n column = some s := by
  simp only [noteTokens, cuts_of_delivery hd, Bool.false_eq_true, if_false, hd, if_true]
  rw [noEmptyToken_str hok hd ht]
  rfl

/-- **What becomes of a column is what is noted of it.** -/
theorem Keeps.move (hg : Growing w) (hok : noEmptyToken aes w a = true) (h : Connections.step aes w a = some u)
    (hold : Keeps aes w n provider column old (last n column)) (hm : ColumnMove aes w a n provider column old new) :
    Keeps aes u n provider column new (noteTokens aes w a last n column) := by
  cases hm with
  | kept hd hc =>
    rw [noteTokens_kept hc hd]
    exact hold.step h
  | cleared hc =>
    have hnone : noteTokens aes w a last n column = none := by
      simp only [noteTokens, hc, if_true]
    rw [hnone]
    trivial
  | @written _ tokens s r nonce blob hd ht hr he =>
    rw [noteTokens_written hok hd ht]
    exact ⟨r, rings_step h r hr, nonce, he⟩
  | @resealed s r nonce blob blob' hd hc hr ho he =>
    rw [noteTokens_kept hc fun tokens ht => by rw [hd] at ht; cases ht]
    cases hl : last n column with
    | none =>
      rw [hl] at hold
      cases hold
    | some s' =>
      rw [hl] at hold
      cases Holds.unique hg hold hr ho
      exact ⟨r, rings_step h r hr, nonce, he⟩

end

theorem Noted.step {last : LastTokens} (hn : Noted aes w last) (hok : noEmptyToken aes w a = true)
    (h : step aes w a = some u) : Noted aes u (noteTokens aes w a last) where
  growing := hn.growing.step h
  attached := hn.attached.step h
  blank n hu column := by
    refine noteTokens_blank (hn.blank n (get_eq_none_of_step h hu) column) fun tokens hd => ?_
    obtain ⟨c, hc⟩ := delivered_get hn.attached h hd
    cases hu.symm.trans hc
  keeps n c' column hu := by
    obtain ⟨c, hbefore, hm⟩ := step_of_get h hu
    have hold : Keeps aes w n c.provider column (c.ct column) (last n column) := by
      rcases hbefore with hget | ⟨hnone, hblank⟩
      · exact hn.keeps n c column hget
      · rw [hblank, hn.blank n hnone]
        trivial
    rw [hm.provider]
    exact hold.move hn.growing hok h (hm.column hbefore hn.attached column)

/-- **No provider response erases a credential**, in every run in which no completed response has the empty string for a
token. -/
theorem credentials_intact {first : Keyring} {s : World × LastTokens}
    (h : (witnessed aes first).Reach (fun s a => noEmptyToken aes s.1 a = true) s) : Intact aes s.1 s.2 := by
  have hnoted : Noted aes s.1 s.2 := by
    refine Machine.Reach.inv (I := fun s => Noted aes s.1 s.2) ?_ ?_ h
    · exact
        { growing := fun r hr => by
            cases List.mem_singleton.1 hr
            exact .refl _
          attached := fun p n kind connection refreshToken hp => by cases hp
          blank := fun _ _ _ => rfl
          keeps := fun n c column hc => by cases hc }
    · intro s b t _ hn hok hst
      obtain ⟨hstep, hnote⟩ := Machine.withHistory_step hst
      rw [hnote]
      exact hn.step hok hstep
  intro n c column hc
  have hk := hnoted.keeps n c column hc
  cases hl : s.2 n column with
  | none =>
    rw [hl] at hk
    cases hb : c.ct column with
    | none => rfl
    | some blob =>
      rw [hb] at hk
      cases hk
  | some v =>
    rw [hl] at hk
    cases hb : c.ct column with
    | none =>
      rw [hb] at hk
      cases hk
    | some blob =>
      rw [hb] at hk
      exact ⟨blob, rfl, hk.decrypt hnoted.growing⟩

/-! ## Google's tokens, given again -/

def sampleWitnessed : Machine (World × LastTokens) Action := witnessed .plain (.single 1 (sampleKey 1))

theorem credentials_intact_refreshed : ∃ s, sampleWitnessed.exec sampleWitnessed.init
      (.authorize (sampleEnv 0) 0 .gmail consented none :: refreshing) = some s ∧
    (s.2 0 .accessTokenCt = some "a2" ∧ s.2 0 .refreshTokenCt = some "r1") ∧ Intact .plain s.1 s.2 := by
  have hallowed : sampleWitnessed.allowed (fun s a => noEmptyToken .plain s.1 a) sampleWitnessed.init
      (.authorize (sampleEnv 0) 0 .gmail consented none :: refreshing) = true := by decide
  have hend : (sampleWitnessed.exec sampleWitnessed.init
      (.authorize (sampleEnv 0) 0 .gmail consented none :: refreshing)).any (fun s =>
        decide (s.2 0 .accessTokenCt = some "a2" ∧ s.2 0 .refreshTokenCt = some "r1")) = true := by decide
  obtain ⟨s, hs, -, hp⟩ := Machine.reach_of_exec hend
  exact ⟨s, hs, of_decide_eq_true hp, credentials_intact (Machine.Steps.of_exec (fun _ _ h => h) hs hallowed)⟩

/-- Google's answer to a later authorization, with nothing in its `refresh_token`. -/
def emptied : Payload :=
  { fields := [("access_token", .str "a3"), ("refresh_token", .str "")], claims := [("sub", .str "7")]
    expiresIn := some 3600 }

/-- A credential that was given, and that its column does not decrypt to. -/
def erased (s : World × LastTokens) (n : Nat) (column : TokenColumn) : Bool :=
  (s.2 n column).any fun given => (s.1.connections.get n).any fun c => (c.ct column).any fun blob =>
    match decrypt .plain blob (aad n c.provider column) s.1.keyring with
    | .ok held => held != given
    | .error _ => true

/-- An empty `refresh_token` is stored over the one that works. -/
theorem empty_token_erases : ∃ s, sampleWitnessed.Reach (fun _ _ => True) s ∧ ¬ Intact .plain s.1 s.2 := by
  have hend : (sampleWitnessed.exec sampleWitnessed.init
      [.authorize (sampleEnv 0) 0 .gmail consented none, .authorize (sampleEnv 1) 0 .gmail emptied (some 0)]).any
        (fun s => erased s 0 .refreshTokenCt) = true := by decide
  obtain ⟨s, -, hreach, hp⟩ := Machine.reach_of_exec hend
  refine ⟨s, hreach, fun hintact => ?_⟩
  simp only [erased, Option.any_eq_true] at hp
  obtain ⟨given, hg, c, hc, blob, hb, hne⟩ := hp
  have hrow := hintact 0 c .refreshTokenCt hc
  rw [hg] at hrow
  obtain ⟨blob', hb', ho⟩ := hrow
  cases hb.symm.trans hb'
  simp only [ho, bne_self_eq_false, Bool.false_eq_true] at hne

end Connections
end SafeSend
