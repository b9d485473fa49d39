import SafeSend.Connections.Authorize
import SafeSend.Connections.Credentials
import SafeSend.Connections.Overlap
/-!
# Asking for consent

Google gives a refresh token with each consent, and takes the oldest away past a hundred.  The history beside the system
notes which connections have been given one since they were last disconnected.
-/
namespace SafeSend
namespace Connections

open Lib Crypto

variable {aes : AESGCM} {w u : World} {a : Action}

/-- A step delivers a refresh token to the connection. -/
def regrants (aes : AESGCM) (w : World) (n : Nat) (a : Action) : Bool :=
  (delivery aes w a).any fun d => d.1 == n && (d.2 .refreshTokenCt).isStr

def noteRegranted (aes : AESGCM) (w : World) (a : Action) (given : Nat → Bool) : Nat → Bool := fun n =>
  !cuts w n a && (regrants aes w n a || given n)

/-- The system, with the connections that have been given a refresh token noted beside it. -/
def regranted (aes : AESGCM) (first : Keyring) : Machine (World × (Nat → Bool)) Action :=
  (system aes first).withHistory (noteRegranted aes) fun _ => false

/-- A row holds a refresh token where it was given one, and none was given where there is no row. -/
structure Recorded (w : World) (given : Nat → Bool) : Prop where
  attached : Attached w
  blank : ∀ n, w.connections.get n = none → given n = false
  held : ∀ n c, w.connections.get n = some c → (c.ct .refreshTokenCt).isSome = given n

theorem regrants_of_null {n : Nat} (hd : ∀ tokens, delivery aes w a = some (n, tokens) → tokens .refreshTokenCt = .null) :
    regrants aes w n a = false := by
  unfold regrants
  cases hdel : delivery aes w a with
  | none => rfl
  | some d =>
    obtain ⟨m, tokens⟩ := d
    rw [Option.any_some]
    by_cases hm : m = n
    · subst hm
      dsimp only
      rw [hd tokens hdel, beq_self_eq_true]
      rfl
    · rw [beq_false_of_ne hm, Bool.false_and]

/-- **Whether a row holds a refresh token is whether it was given one.** -/
theorem ColumnMove.regranted {n : Nat} {provider : ProviderKind} {b b' : Option Text.Bytes} {given : Nat → Bool}
    (hm : ColumnMove aes w a n provider .refreshTokenCt b b') (hb : b.isSome = given n) :
    b'.isSome = noteRegranted aes w a given n := by
  unfold noteRegranted
  cases hm with
  | kept hd hc => rw [hc, regrants_of_null hd, hb]; rfl
  | cleared hc => rw [hc]; rfl
  | written hd ht hr he =>
    have hcut : cuts w n a = false := by
      cases a with
      | disconnect id userId => cases hd
      | _ => rfl
    have hgrant : regrants aes w n a = true := by
      unfold regrants
      rw [hd, Option.any_some]
      dsimp only
      rw [beq_self_eq_true, ht]
      rfl
    rw [hcut, hgrant]
    rfl
  | resealed hd hc hr ho he =>
    rw [hc, ← hb]
    exact (Bool.or_true _).symm

theorem Recorded.step {given : Nat → Bool} (h : Recorded w given) (hs : step aes w a = some u) :
    Recorded u (noteRegranted aes w a given) where
  attached := h.attached.step hs
  blank n hu := by
    have hgrant : regrants aes w n a = false := by
      refine Bool.eq_false_iff.2 fun hgrant => ?_
      obtain ⟨⟨m, tokens⟩, hd, hm⟩ := (Option.any_eq_true _ _).1 hgrant
      obtain ⟨c, hc⟩ := delivered_get h.attached hs hd
      have hn : m = n := beq_iff_eq.1 (Bool.and_eq_true_iff.1 hm).1
      rw [hn] at hc
      cases hu.symm.trans hc
    unfold noteRegranted
    rw [hgrant, h.blank n (get_eq_none_of_step hs hu)]
    exact Bool.and_false _
  held n c' hu := by
    obtain ⟨c, hbefore, hm⟩ := step_of_get hs hu
    refine (hm.column hbefore h.attached .refreshTokenCt).regranted ?_
    rcases hbefore with hget | ⟨hnone, hblank⟩
    · exact h.held n c hget
    · rw [hblank, h.blank n hnone]
      rfl

theorem recorded {first : Keyring} {s : World × (Nat → Bool)} (h : (regranted aes first).Reach (fun _ _ => True) s) :
    Recorded s.1 s.2 := by
  refine Machine.Reach.inv (I := fun s => Recorded s.1 s.2) ?_ ?_ h
  · exact
      { attached := fun p n kind connection refreshToken hp => by cases hp
        blank := fun _ _ => rfl
        held := fun n c hc => by cases hc }
  · intro s b t _ hr _ hst
    obtain ⟨hstep, hnote⟩ := Machine.withHistory_step hst
    rw [hnote]
    exact hr.step hstep

/-- **Consent is asked for to repair a connection, or where there is none in use that was given a refresh token**: in
every history, and never otherwise. -/
theorem consent_due {first ring : Keyring} {cfg : OAuthSettings} {s : World × (Nat → Bool)} {r : BeginRequest}
    {nonce : String} {now : Int} {b : Authorization} (h : (regranted aes first).Reach (fun _ _ => True) s)
    (hb : beginConnection ring cfg s.1.connections r nonce now = .ok b) :
    Dict.get "prompt" (asked b.url).2 = some "consent" ↔ r.providerName = "gmail" ∧
      (r.reconnectConnectionId.isSome = true ∨
        ∀ id c, activeFor s.1.connections r.userId .gmail = some (id, c) → s.2 id = false) := by
  have hheld := (recorded h).held
  obtain ⟨provider, clientId, secret, hprovider, -, hasked⟩ := begin_asked hb
  rw [hasked, get_prompt, shouldForceConsent_iff, providerFor_eq_ok hprovider]
  refine and_congr ?_ (or_congr_right (forall₂_congr fun id c => forall_congr' fun hc => ?_))
  · cases provider with
    | gmail => exact ⟨fun _ => rfl, fun _ => rfl⟩
    | slack => exact ⟨(fun h => by cases h), fun h => absurd h (by decide)⟩
  · have hget := hheld id c (Table.first_eq_some hc).1
    rw [← hget, Option.isSome_eq_false_iff, Option.isNone_iff_eq_none]

theorem consent_due_login : ∃ (s : World × (Nat → Bool)) (b : Authorization),
    beginConnection sampleKeyring sampleSettings s.1.connections { userId := 0, providerName := "gmail" } "n" 0 = .ok b ∧
      Dict.get "prompt" (asked b.url).2 ≠ some "consent" := by
  have hend : ((regranted .plain (.single 1 (sampleKey 1))).exec (regranted .plain (.single 1 (sampleKey 1))).init
      [.authorize (sampleEnv 0) 0 .gmail consented none]).any (fun s =>
        s.2 0 && (activeFor s.1.connections 0 .gmail).any fun c => c.1 == 0) = true := by decide
  obtain ⟨s, -, hreach, hp⟩ := Machine.reach_of_exec hend
  obtain ⟨hgiven, hactive⟩ := Bool.and_eq_true_iff.1 hp
  obtain ⟨⟨id, c⟩, hc, hid⟩ := (Option.any_eq_true _ _).1 hactive
  have hbegun : beginConnection sampleKeyring sampleSettings s.1.connections { userId := 0, providerName := "gmail" } "n" 0 =
      .ok ⟨_, "gmail", CONSENT_RATIONALE .gmail⟩ := rfl
  refine ⟨s, _, hbegun, fun hprompt => ?_⟩
  rcases ((consent_due hreach hbegun).1 hprompt).2 with hrepair | hnone
  · cases hrepair
  · rw [← beq_iff_eq.1 hid, hnone id c hc] at hgiven
    cases hgiven

end Connections
end SafeSend
