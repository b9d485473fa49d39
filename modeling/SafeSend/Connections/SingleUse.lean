import SafeSend.Connections.Reconnect
/-!
# A state used once

Users begin authorizations, and callbacks present states: a state is verified first, and the code it came with is exchanged
before the connection lands.  Nothing that `complete` writes says that a state has been used, so within its window only
whoever presents it decides how often it is.
-/
namespace SafeSend
namespace Connections

open Lib Crypto

structure Callbacks where
  now : Int := 0
  connections : Rows := .empty
  /-- The callbacks between verifying their state and landing. -/
  pending : List (String × OAuthState) := []
  /-- The states whose callbacks have completed, once for each; nothing reads it. -/
  completed : List String := []

inductive CallbackAction
  | tick (elapsed : Nat)
  | begin (userId : Nat) (providerName returnTo : String) (reconnectConnectionId : Option Nat) (nonce : String)
  /-- A callback verifies the state it was called with. -/
  | present (raw : String)
  /-- A pending callback has its answer, and lands or raises. -/
  | land (i : Nat) (nonces : TokenColumn → Nonce) (exchange : ProviderKind → Except Exn Grant)
  /-- A pending callback dies with its process. -/
  | crash (i : Nat)
  /-- Everything else that writes connections. -/
  | other (connections : Rows)

namespace Callbacks

variable (aes : AESGCM) (ring : Keyring)

def presentState (w : Callbacks) (raw : String) : Callbacks :=
  match verify ring raw w.now with
  | .error _ => w
  | .ok s => { w with pending := (raw, s) :: w.pending }

def landPending (w : Callbacks) (i : Nat) (nonces : TokenColumn → Nonce) (exchange : ProviderKind → Except Exn Grant)
    (p : String × OAuthState) : Callbacks :=
  match completeVerified aes ring nonces p.2 exchange w.connections with
  | .error _ => { w with pending := w.pending.eraseIdx i }
  | .ok (_, t) =>
    { w with connections := t, pending := w.pending.eraseIdx i, completed := p.1 :: w.completed }

/-- An authorization that is begun writes nothing. -/
def step (w : Callbacks) : CallbackAction → Option Callbacks
  | .tick elapsed => some { w with now := w.now + elapsed }
  | .begin _ _ _ _ _ => some w
  | .present raw => some (w.presentState ring raw)
  | .land i nonces exchange => (w.pending[i]?).map (w.landPending aes ring i nonces exchange)
  | .crash i => some { w with pending := w.pending.eraseIdx i }
  | .other connections => some { w with connections := connections }

end Callbacks

def callbacks (aes : AESGCM) (ring : Keyring) : Machine Callbacks CallbackAction where
  init := {}
  step := Callbacks.step aes ring

/-- Each state value that was signed led to at most one completed connection. -/
def SingleUse (ring : Keyring) (w : Callbacks) : Prop := ∀ s, w.completed.count (sign ring s) ≤ 1

/-- The states of the callbacks that are under way or have completed. -/
def Callbacks.uses (w : Callbacks) : List String := w.completed ++ w.pending.map Prod.fst

/-- A state whose callback is under way or has completed is presented again only once its window is over. -/
def windowOver (ring : Keyring) (w : Callbacks) : CallbackAction → Prop
  | .present raw => raw ∈ w.uses → ∀ s, raw = sign ring s → wholeSeconds w.now - s.issuedAt > STATE_TTL_SECONDS
  | _ => True

variable {aes : AESGCM} {ring : Keyring} {w w' : Callbacks}

/-- One callback fewer under way. -/
theorem count_eraseIdx (raw : String) : ∀ {l : List (String × OAuthState)} {i : Nat} {p : String × OAuthState},
    l[i]? = some p → ((l.eraseIdx i).map Prod.fst).count raw + [p.1].count raw = (l.map Prod.fst).count raw
  | q :: l, 0, p, h => by
    obtain rfl : q = p := Option.some.inj h
    rw [List.eraseIdx_zero, List.tail_cons, List.map_cons, ← List.count_append,
      ((List.perm_append_singleton q.1 (l.map Prod.fst)).count_eq raw)]
  | q :: l, i + 1, p, h => by
    rw [List.getElem?_cons_succ] at h
    have ih := count_eraseIdx raw h
    have hhead : (q.1 :: (l.eraseIdx i).map Prod.fst).count raw + [p.1].count raw = (q.1 :: l.map Prod.fst).count raw := by
      by_cases hq : q.1 = raw
      · rw [hq, List.count_cons_self, List.count_cons_self]
        omega
      · rw [List.count_cons_of_ne hq, List.count_cons_of_ne hq]
        exact ih
    exact hhead

theorem count_presented (s : OAuthState) (hw : w.uses.count (sign ring s) ≤ 1) {raw : String}
    (hok : windowOver ring w (.present raw)) : (w.presentState ring raw).uses.count (sign ring s) ≤ 1 := by
  unfold Callbacks.presentState
  cases hv : verify ring raw w.now with
  | error e => exact hw
  | ok v =>
    show (w.completed ++ raw :: w.pending.map Prod.fst).count (sign ring s) ≤ 1
    unfold Callbacks.uses at hw
    by_cases hraw : raw = sign ring s
    · -- It verifies in its window, so no other callback has come with it.
      have hnew : raw ∉ w.uses := by
        intro hmem
        have hlate := hok hmem s hraw
        rw [hraw, verify_sign, if_pos hlate] at hv
        cases hv
      unfold Callbacks.uses at hnew
      rw [hraw] at hnew ⊢
      have hzero := List.count_eq_zero.2 hnew
      rw [List.count_append] at hzero
      rw [List.count_append, List.count_cons_self]
      omega
    · rw [List.count_append] at hw ⊢
      rw [List.count_cons_of_ne hraw]
      exact hw

theorem count_landed (s : OAuthState) (hw : w.uses.count (sign ring s) ≤ 1) {i : Nat} {p : String × OAuthState}
    (hp : w.pending[i]? = some p) (nonces : TokenColumn → Nonce) (exchange : ProviderKind → Except Exn Grant) :
    (w.landPending aes ring i nonces exchange p).uses.count (sign ring s) ≤ 1 := by
  have herase := count_eraseIdx (sign ring s) hp
  unfold Callbacks.uses at hw
  rw [List.count_append] at hw
  unfold Callbacks.landPending
  cases completeVerified aes ring nonces p.2 exchange w.connections with
  | error e =>
    simp only [Callbacks.uses, List.count_append]
    omega
  | ok r =>
    have hcons : (p.1 :: w.completed).count (sign ring s) = w.completed.count (sign ring s) + [p.1].count (sign ring s) := by
      rw [← List.count_append, (List.perm_append_singleton p.1 w.completed).count_eq]
    simp only [Callbacks.uses, List.count_append, hcons]
    omega

/-- **A state value is used at most once**, in every run that presents it again only once its window is over. -/
theorem uses_count_le (s : OAuthState) (h : (callbacks aes ring).Reach (windowOver ring) w) :
    w.uses.count (sign ring s) ≤ 1 := by
  refine Machine.Reach.inv (I := fun w => w.uses.count (sign ring s) ≤ 1) (Nat.zero_le _) (fun w a w' _ hw hok hs => ?_) h
  cases a with
  | tick elapsed =>
    obtain rfl := Option.some.inj hs
    exact hw
  | begin userId providerName returnTo reconnectConnectionId nonce =>
    obtain rfl := Option.some.inj hs
    exact hw
  | present raw =>
    obtain rfl := Option.some.inj hs
    exact count_presented s hw hok
  | land i nonces exchange =>
    obtain ⟨p, hp, rfl⟩ := Option.map_eq_some_iff.1 hs
    exact count_landed s hw hp nonces exchange
  | crash i =>
    obtain rfl := Option.some.inj hs
    refine Nat.le_trans (List.Sublist.count_le _ ?_) hw
    exact List.Sublist.append_left ((List.eraseIdx_sublist w.pending i).map Prod.fst) w.completed
  | other connections =>
    obtain rfl := Option.some.inj hs
    exact hw

/-- **Each signed state leads to at most one completed connection**, in every such run. -/
theorem single_use (h : (callbacks aes ring).Reach (windowOver ring) w) : SingleUse ring w := by
  intro s
  have hle := uses_count_le s h
  unfold Callbacks.uses at hle
  rw [List.count_append] at hle
  omega

/-! ## Sample runs -/

def sampleState : OAuthState := newState 1 "gmail" "n" 0 "/connections" false

/-- A grant without tokens lands, whatever the table. -/
theorem landGrant_tokenless (account : String) (haccount : account.toList.all (· == ':') = false) (t : Rows) :
    ∃ r, landGrant AESGCM.plain sampleKeyring (fun _ => sampleNonce) 1 .gmail (grantFor account) t = .ok r := by
  have hsealed : ∃ ct, sealTokens AESGCM.plain sampleKeyring (fun _ => sampleNonce)
      (insertOrUpdate 1 .gmail (grantFor account) t).1 .gmail (grantFor account) = .ok ct := ⟨_, rfl⟩
  obtain ⟨ct, hct⟩ := hsealed
  exact ⟨_, landGrant_of_sealed haccount (by decide) rfl hct⟩

theorem verify_sample {now : Int} (hnow : now = 0) :
    verify sampleKeyring (sign sampleKeyring sampleState) now = .ok sampleState := by
  rw [verify_sign, if_neg]
  rw [hnow]
  decide

/-- A callback whose state verifies lands a grant for the account. -/
theorem sampleCallback (ok : Callbacks → CallbackAction → Prop) {w : Callbacks} {raw : String}
    (hverify : verify sampleKeyring raw w.now = .ok sampleState) (hpending : w.pending = [])
    (account : String) (haccount : account.toList.all (· == ':') = false) (hpresent : ok w (.present raw))
    (hland : ∀ v, ok v (.land 0 (fun _ => sampleNonce) fun _ => .ok (grantFor account))) :
    ∃ w', (callbacks AESGCM.plain sampleKeyring).Steps ok w w' ∧ w'.now = w.now ∧ w'.pending = [] ∧
      w'.completed = raw :: w.completed := by
  let v : Callbacks := { w with pending := [(raw, sampleState)] }
  have hv : (callbacks AESGCM.plain sampleKeyring).step w (.present raw) = some v := by
    show some (w.presentState sampleKeyring raw) = some v
    unfold Callbacks.presentState
    rw [hverify, hpending]
  obtain ⟨r, hr⟩ := landGrant_tokenless account haccount w.connections
  have hcomplete : completeVerified AESGCM.plain sampleKeyring (fun _ => sampleNonce) sampleState
      (fun _ => .ok (grantFor account)) w.connections = .ok r := hr
  let w' : Callbacks := { w with connections := r.2, pending := [], completed := raw :: w.completed }
  have hw' : (callbacks AESGCM.plain sampleKeyring).step v
      (.land 0 (fun _ => sampleNonce) fun _ => .ok (grantFor account)) = some w' := by
    show some (v.landPending AESGCM.plain sampleKeyring 0 _ _ (raw, sampleState)) = some w'
    unfold Callbacks.landPending
    rw [hcomplete]
    rfl
  exact ⟨w', Machine.Steps.cons hpresent hv (Machine.Steps.cons (hland v) hw' (Machine.Steps.refl _)), rfl, rfl, rfl⟩

theorem single_use_first :
    ∃ w, (callbacks AESGCM.plain sampleKeyring).Reach (windowOver sampleKeyring) w ∧ SingleUse sampleKeyring w ∧
      w.completed = [sign sampleKeyring sampleState] := by
  have hfirst : windowOver sampleKeyring {} (.present (sign sampleKeyring sampleState)) := fun hm =>
    absurd hm List.not_mem_nil
  obtain ⟨w, hsteps, -, -, hcompleted⟩ := sampleCallback (windowOver sampleKeyring) (w := {}) (verify_sample rfl) rfl "a"
    (by decide) hfirst fun _ => trivial
  exact ⟨w, hsteps, single_use hsteps, hcompleted⟩

/-- The same state with two codes, and two connections: the second callback is as good as the first. -/
theorem state_used_twice :
    ¬ ∀ w, (callbacks AESGCM.plain sampleKeyring).Reach (fun _ _ => True) w → SingleUse sampleKeyring w := by
  intro hclaim
  obtain ⟨v, hv, hnow, hpending, hcompleted⟩ := sampleCallback (fun _ _ => True) (w := {}) (verify_sample rfl) rfl
    "a" (by decide) trivial fun _ => trivial
  obtain ⟨w, hw, -, -, hcompleted'⟩ := sampleCallback (fun _ _ => True) (verify_sample hnow) hpending "b" (by decide)
    trivial fun _ => trivial
  have hle := hclaim w (Machine.Steps.trans hv hw) sampleState
  rw [hcompleted', hcompleted, List.count_cons_self, List.count_cons_self] at hle
  omega

end Connections
end SafeSend
