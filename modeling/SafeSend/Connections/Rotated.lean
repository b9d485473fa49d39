import Mathlib.Data.List.Sort
import SafeSend.Lib.Worklist
import SafeSend.Connections.KeyVersions
/-!
# A rotation from beginning to end

The rows recorded under an older key version are a worklist, in the order of their ids: a row that is re-encrypted
leaves it, a row one of whose envelopes does not open stays, and one at which the script raises stops it.
-/
namespace SafeSend
namespace Connections

open Lib Crypto
open Text (Bytes)

variable {aes : AESGCM} {ring : Keyring} {batch : Int} {nonces : Nat → Nat → TokenColumn → Nonce} {t t' : Rows} {n : Nat}
  {c c' : ConnectionRow}

/-- What a column's envelope opens to, where it has one. -/
def ConnectionRow.opened (aes : AESGCM) (ring : Keyring) (id : Nat) (c : ConnectionRow) (column : TokenColumn) :
    Option (Except CryptoError String) :=
  (c.ct column).map fun blob => decrypt aes blob (aad id c.provider column) ring

/-- Every envelope of the row is readable. -/
def AllOpen (aes : AESGCM) (ring : Keyring) (id : Nat) (c : ConnectionRow) : Prop :=
  ∀ column r, c.opened aes ring id column = some r → ∃ s, r = .ok s

/-- The row is recorded under the current key version, and its envelopes are sealed under it. -/
def StoredUnder (ring : Keyring) (c : ConnectionRow) : Prop :=
  c.keyVersion = ring.current ∧ ∀ column blob, c.ct column = some blob →
    ∃ v, keyVersionOf blob = .ok v ∧ (v : Int) = ring.current

/-- What a column makes of its row. -/
def columnFate (ring : Keyring) : Option (Except CryptoError String) → Fate
  | none => .leaves
  | some (.ok _) => if 0 ≤ ring.current ∧ ring.current < 65536 then .leaves else .stops
  | some (.error (.envelope _)) => .stays
  | some (.error (.keyNotFound _)) => .stays
  | some (.error _) => .stops

/-- A row is re-encrypted, stays as it is, or raises; one envelope that raises is enough, and then one that does not
open. -/
def rowFate (aes : AESGCM) (ring : Keyring) (r : Nat × ConnectionRow) : Fate :=
  let fates := [TokenColumn.accessTokenCt, .refreshTokenCt, .botTokenCt].map fun column =>
    columnFate ring (r.2.opened aes ring r.1 column)
  if .stops ∈ fates then .stops else if .stays ∈ fates then .stays else .leaves

/-- The rows recorded under an older key version. -/
def stale (ring : Keyring) (t : Rows) : List (Nat × ConnectionRow) :=
  t.rows.filter fun r => decide (r.2.keyVersion < ring.current)

theorem selectStale_eq (k : Nat) : selectStale ring (fun _ => false) k t = (stale ring t).take k := by
  simp only [selectStale, stale, Bool.not_false, Bool.and_true]

theorem mem_stale : (n, c) ∈ stale ring t ↔ t.get n = some c ∧ c.keyVersion < ring.current := by
  rw [stale, List.mem_filter, Table.mem_rows, decide_eq_true_eq]

theorem stale_sorted (t : Rows) : (stale ring t).Pairwise fun a b => a.1 < b.1 := (Table.rows_sorted t).filter _

/-! ## One row -/

variable (aes) in
theorem encrypt_isOk (h : 0 ≤ ring.current ∧ ring.current < 65536) (nonce : Nonce) (s : String) (a : Bytes) :
    ∃ blob, encrypt aes nonce s a ring = .ok blob := by
  obtain ⟨k, hk⟩ := ring.lookup_current
  have hkey : ring.keyFor ring.current = .ok k := Keyring.keyFor_eq_ok.2 hk
  have hbytes : ∃ b, toBytes ring.current = .ok b := by
    unfold toBytes
    rw [if_neg (by omega), if_neg (by omega)]
    exact ⟨_, rfl⟩
  obtain ⟨b, hb⟩ := hbytes
  unfold encrypt
  rw [hkey, hb]
  exact ⟨_, rfl⟩

variable (aes) in
theorem encrypt_raises (h : ¬ (0 ≤ ring.current ∧ ring.current < 65536)) (nonce : Nonce) (s : String) (a : Bytes) :
    ∃ e, encrypt aes nonce s a ring = .error e := by
  cases he : encrypt aes nonce s a ring with
  | error e => exact ⟨e, rfl⟩
  | ok blob =>
    obtain ⟨-, -, h0, hlt, -⟩ := encrypt_eq_ok he
    exact absurd ⟨h0, hlt⟩ h

variable (aes ring) in
/-- **A column is resealed, broken or raising as its fate says**, whatever the nonces. -/
theorem resealToken_fate (nonces : TokenColumn → Nonce) (n : Nat) (c : ConnectionRow) (column : TokenColumn) :
    match columnFate ring (c.opened aes ring n column) with
    | .leaves => ∃ r, resealToken aes ring nonces n c column = .ok r ∧ r.isBroken = false
    | .stays => ∃ r, resealToken aes ring nonces n c column = .ok r ∧ r.isBroken = true
    | .stops => ∃ e, resealToken aes ring nonces n c column = .error e := by
  unfold resealToken ConnectionRow.opened
  cases c.ct column with
  | none => exact ⟨_, rfl, rfl⟩
  | some blob =>
    simp only [Option.map_some]
    cases hd : decrypt aes blob (aad n c.provider column) ring with
    | error e =>
      cases e with
      | envelope d => exact ⟨_, rfl, rfl⟩
      | keyNotFound d => exact ⟨_, rfl, rfl⟩
      | overflow d => exact ⟨_, rfl⟩
      | unicode d => exact ⟨_, rfl⟩
    | ok s =>
      by_cases hv : 0 ≤ ring.current ∧ ring.current < 65536
      · obtain ⟨blob', hb⟩ := encrypt_isOk aes hv (nonces column) s (aad n c.provider column)
        simp only [columnFate, if_pos hv, hb]
        exact ⟨_, rfl, rfl⟩
      · obtain ⟨e, he⟩ := encrypt_raises aes hv (nonces column) s (aad n c.provider column)
        simp only [columnFate, if_neg hv, he]
        exact ⟨_, rfl⟩

variable (aes ring) in
/-- **A row is re-encrypted, left or raising as its fate says.** -/
theorem rotateRow_fate (nonces : TokenColumn → Nonce) (n : Nat) (c : ConnectionRow) :
    match rowFate aes ring (n, c) with
    | .leaves => ∃ c', rotateRow aes ring nonces n c = .ok (some c')
    | .stays => rotateRow aes ring nonces n c = .ok none
    | .stops => ∃ e, rotateRow aes ring nonces n c = .error e := by
  have ha := resealToken_fate aes ring nonces n c .accessTokenCt
  have hr := resealToken_fate aes ring nonces n c .refreshTokenCt
  have hb := resealToken_fate aes ring nonces n c .botTokenCt
  simp only [rowFate, List.map_cons, List.map_nil, List.mem_cons, List.not_mem_nil, or_false]
  generalize columnFate ring (c.opened aes ring n .accessTokenCt) = fa at ha ⊢
  generalize columnFate ring (c.opened aes ring n .refreshTokenCt) = fr at hr ⊢
  generalize columnFate ring (c.opened aes ring n .botTokenCt) = fb at hb ⊢
  cases fa with
  | stops =>
    obtain ⟨e, he⟩ := ha
    simp [rotateRow, he, bind, Except.bind]
  | _ =>
    obtain ⟨r1, h1, hbroken1⟩ := ha
    cases fr with
    | stops =>
      obtain ⟨e, he⟩ := hr
      simp [rotateRow, h1, he, bind, Except.bind]
    | _ =>
      obtain ⟨r2, h2, hbroken2⟩ := hr
      cases fb with
      | stops =>
        obtain ⟨e, he⟩ := hb
        simp [rotateRow, h1, h2, he, bind, Except.bind]
      | _ =>
        obtain ⟨r3, h3, hbroken3⟩ := hb
        simp [rotateRow, h1, h2, h3, hbroken1, hbroken2, hbroken3, bind, Except.bind, pure, Except.pure]

theorem allOpen_of_leaves (h : rowFate aes ring (n, c) = .leaves) : AllOpen aes ring n c := by
  intro column r hr
  have hmem : columnFate ring (c.opened aes ring n column) ∈
      [TokenColumn.accessTokenCt, .refreshTokenCt, .botTokenCt].map fun column =>
        columnFate ring (c.opened aes ring n column) :=
    List.mem_map.2 ⟨column, by cases column <;> decide, rfl⟩
  unfold rowFate at h
  simp only at h
  split at h
  · cases h
  · split at h
    · cases h
    next hstops hstays =>
      rw [hr] at hmem
      cases r with
      | ok s => exact ⟨s, rfl⟩
      | error e =>
        cases e with
        | envelope d => exact absurd hmem hstays
        | keyNotFound d => exact absurd hmem hstays
        | overflow d => exact absurd hmem hstops
        | unicode d => exact absurd hmem hstops

/-- **A re-encrypted row is stored under the current version, with the same plaintexts.** -/
theorem rotateRow_stored {nonces : TokenColumn → Nonce} (h : rotateRow aes ring nonces n c = .ok (some c')) :
    StoredUnder ring c' ∧ ∀ column, c'.opened aes ring n column = c.opened aes ring n column := by
  obtain ⟨⟨ct, rfl⟩, hcols⟩ := rotateRow_eq_ok h
  refine ⟨⟨rfl, fun column blob hb => ?_⟩, fun column => ?_⟩
  · rcases hcols column with ⟨-, hn⟩ | ⟨-, s, blob', -, -, he, hb'⟩
    · cases hn.symm.trans hb
    · cases hb'.symm.trans hb
      exact keyVersionOf_encrypt he
  · unfold ConnectionRow.opened
    rcases hcols column with ⟨hc, hn⟩ | ⟨blob, s, blob', hc, hd, he, hb'⟩
    · rw [hn, hc]
    · rw [hb', hc]
      simp only [Option.map_some, decrypt_encrypt he rfl, hd]

/-! ## One turn -/

/-- A row of a batch that nothing stops: re-encrypted where its fate is to leave, or as it was. -/
theorem foldlM_fate {nonces : Nat → TokenColumn → Nonce} {n : Nat} {c : ConnectionRow} :
    ∀ {l : List (Nat × ConnectionRow)} {t t' : Rows}, l.Pairwise (fun a b => a.1 < b.1) →
      l.foldlM (rotateOne aes ring nonces) t = .ok t' → (n, c) ∈ l → rowFate aes ring (n, c) = .leaves →
      ∃ c', rotateRow aes ring (nonces n) n c = .ok (some c') ∧ t'.get n = (t.get n).map fun _ => c'
  | [], _, _, _, _, hmem, _ => by cases hmem
  | (m, d) :: l, t, t', hs, h, hmem, hf => by
    obtain ⟨hlt, hs⟩ := List.pairwise_cons.1 hs
    rw [List.foldlM_cons] at h
    rcases List.mem_cons.1 hmem with heq | hmem
    · cases heq
      have hrow := rotateRow_fate aes ring (nonces n) n c
      rw [hf] at hrow
      obtain ⟨c', hr⟩ := hrow
      simp only [rotateOne, hr, bind, Except.bind] at h
      refine ⟨c', hr, ?_⟩
      -- the rows behind it have other ids
      rcases foldlM_rotateOne n h with he | ⟨d, d', hd, -, -⟩
      · rw [he, Table.get_modify_self]
      · exact absurd (hlt _ hd) (Nat.lt_irrefl _)
    · have hne : n ≠ m := Nat.ne_of_gt (hlt _ hmem)
      cases hr : rotateRow aes ring (nonces m) m d with
      | error e =>
        simp only [rotateOne, hr, bind, Except.bind] at h
        cases h
      | ok r =>
        cases r with
        | none =>
          simp only [rotateOne, hr, bind, Except.bind] at h
          exact foldlM_fate hs h hmem hf
        | some d' =>
          simp only [rotateOne, hr, bind, Except.bind] at h
          obtain ⟨c', hc, he⟩ := foldlM_fate hs h hmem hf
          exact ⟨c', hc, by rw [he, Table.get_modify_of_ne _ _ hne]⟩

/-- A batch raises exactly where one of its rows does. -/
theorem foldlM_raises {nonces : Nat → TokenColumn → Nonce} :
    ∀ {l : List (Nat × ConnectionRow)} {t : Rows}, (∃ e, l.foldlM (rotateOne aes ring nonces) t = .error e) ↔
      ∃ r ∈ l, rowFate aes ring r = .stops
  | [], t => by
    constructor
    · rintro ⟨e, he⟩
      cases he
    · rintro ⟨r, hr, -⟩
      cases hr
  | (m, d) :: l, t => by
    have hrow := rotateRow_fate aes ring (nonces m) m d
    rw [List.foldlM_cons]
    cases hf : rowFate aes ring (m, d) with
    | stops =>
      rw [hf] at hrow
      obtain ⟨e, he⟩ := hrow
      simp only [rotateOne, he, bind, Except.bind]
      exact ⟨fun _ => ⟨(m, d), List.mem_cons_self, hf⟩, fun _ => ⟨e, rfl⟩⟩
    | stays =>
      rw [hf] at hrow
      simp only [rotateOne, hrow, bind, Except.bind, foldlM_raises, List.exists_mem_cons_iff, hf, reduceCtorEq, false_or]
    | leaves =>
      rw [hf] at hrow
      obtain ⟨d', hr⟩ := hrow
      simp only [rotateOne, hr, bind, Except.bind, foldlM_raises, List.exists_mem_cons_iff, hf, reduceCtorEq, false_or]

variable {turn : Nat → TokenColumn → Nonce} {k : Nat}

/-- A turn raises exactly where one of the rows it selects does. -/
theorem rotateBatch_raises (hf : fitsKeyVersion ring.current = true) :
    (∃ e, rotateBatch aes ring turn (fun _ => false) k t = .error e) ↔
      ∃ r ∈ (stale ring t).take k, rowFate aes ring r = .stops := by
  have hfold : (∃ e, ((stale ring t).take k).foldlM (rotateOne aes ring turn) t = .error e) ↔ _ := foldlM_raises
  rw [← hfold]
  unfold rotateBatch
  rw [if_pos hf, selectStale_eq]
  constructor
  · rintro ⟨e, he⟩
    split at he
    · cases he
    next e' hfold => exact ⟨e', hfold⟩
  · rintro ⟨e, he⟩
    exact ⟨.crypto e, by rw [he]⟩

/-- A row that leaves in a turn is re-encrypted in it. -/
theorem rotateBatch_leaves (h : rotateBatch aes ring turn (fun _ => false) k t = .ok t')
    (hmem : (n, c) ∈ (stale ring t).take k) (hf : rowFate aes ring (n, c) = .leaves) :
    ∃ c', rotateRow aes ring (turn n) n c = .ok (some c') ∧ t'.get n = some c' := by
  have hget : t.get n = some c := (mem_stale.1 (List.mem_of_mem_take hmem)).1
  unfold rotateBatch at h
  split at h
  · rw [selectStale_eq] at h
    split at h
    next t₁ hfold =>
      cases h
      have hsorted : ((stale ring t).take k).Pairwise fun a b => a.1 < b.1 := (stale_sorted t).sublist (List.take_sublist _ _)
      obtain ⟨c', hr, he⟩ := foldlM_fate hsorted hfold hmem hf
      exact ⟨c', hr, by rw [he, hget]; rfl⟩
    · cases h
  · cases h

/-- Any other row is as it was. -/
theorem rotateBatch_same (h : rotateBatch aes ring turn (fun _ => false) k t = .ok t')
    (hno : ∀ c, (n, c) ∈ (stale ring t).take k → rowFate aes ring (n, c) ≠ .leaves) : t'.get n = t.get n := by
  unfold rotateBatch at h
  split at h
  · rw [selectStale_eq] at h
    split at h
    next t₁ hfold =>
      cases h
      rcases foldlM_rotateOne n hfold with he | ⟨d, d', hd, hr, -⟩
      · exact he
      · have hrow := rotateRow_fate aes ring (turn n) n d
        cases hf : rowFate aes ring (n, d) with
        | leaves => exact absurd hf (hno d hd)
        | stays =>
          rw [hf, hr] at hrow
          cases hrow
        | stops =>
          rw [hf, hr] at hrow
          obtain ⟨e, he⟩ := hrow
          cases he
    · cases h
  · cases h

/-- **A turn of the script is a turn of the worklist.** -/
theorem stale_rotateBatch (hv : fitsKeyVersion ring.current = true)
    (h : rotateBatch aes ring turn (fun _ => false) k t = .ok t') :
    stale ring t' = Worklist.rest (rowFate aes ring) k (stale ring t) := by
  have hstops : ∀ r ∈ (stale ring t).take k, rowFate aes ring r ≠ .stops := by
    intro r hr hf
    have hraise : ∃ e, rotateBatch aes ring turn (fun _ => false) k t = .error e := (rotateBatch_raises hv).2 ⟨r, hr, hf⟩
    obtain ⟨e, he⟩ := hraise
    cases he.symm.trans h
  have hsorted : (Worklist.rest (rowFate aes ring) k (stale ring t)).Pairwise fun a b => a.1 < b.1 :=
    (stale_sorted t).sublist (Worklist.rest_sublist _ k _)
  have : Std.Irrefl fun a b : Nat × ConnectionRow => a.1 < b.1 := ⟨fun a => Nat.lt_irrefl a.1⟩
  have : Std.Antisymm fun a b : Nat × ConnectionRow => a.1 < b.1 := ⟨fun a b h h' => absurd h (Nat.lt_asymm h')⟩
  refine (stale_sorted t').eq_of_mem_iff hsorted ?_
  rintro ⟨n, c⟩
  rw [mem_stale, Worklist.rest, List.mem_append, List.mem_filter, decide_eq_true_eq]
  constructor
  · rintro ⟨hget, hlt⟩
    by_cases hl : ∃ d, (n, d) ∈ (stale ring t).take k ∧ rowFate aes ring (n, d) = .leaves
    · -- re-encrypted, it is stale no longer
      obtain ⟨d, hd, hf⟩ := hl
      obtain ⟨c', hr, he⟩ := rotateBatch_leaves h hd hf
      cases he.symm.trans hget
      have hversion := (rotateRow_stored hr).1.1
      omega
    · have hsame := rotateBatch_same h fun d hd hf => hl ⟨d, hd, hf⟩
      have hmem : (n, c) ∈ stale ring t := mem_stale.2 ⟨hsame ▸ hget, hlt⟩
      rw [← List.take_append_drop k (stale ring t), List.mem_append] at hmem
      rcases hmem with hmem | hmem
      · refine .inl ⟨hmem, ?_⟩
        cases hf : rowFate aes ring (n, c) with
        | leaves => exact absurd ⟨c, hmem, hf⟩ hl
        | stays => rfl
        | stops => exact absurd hf (hstops _ hmem)
      · exact .inr hmem
  · intro hmem
    have hold : (n, c) ∈ stale ring t := by
      rcases hmem with hmem | hmem
      · exact List.mem_of_mem_take hmem.1
      · exact List.mem_of_mem_drop hmem
    obtain ⟨hget, hlt⟩ := mem_stale.1 hold
    refine ⟨?_, hlt⟩
    rw [rotateBatch_same h, hget]
    intro d hd hf
    cases (mem_stale.1 (List.mem_of_mem_take hd)).1.symm.trans hget
    rcases hmem with hmem | hmem
    · cases hf.symm.trans hmem.2
    · -- no id is both in the batch and behind it
      have hsplit : (stale ring t).Pairwise fun a b => a.1 < b.1 := stale_sorted t
      rw [← List.take_append_drop k (stale ring t), List.pairwise_append] at hsplit
      exact absurd (hsplit.2.2 _ hd _ hmem) (Nat.lt_irrefl _)

/-! ## The run -/

def Rotation.ending (r : Rotation) : Worklist.Ending :=
  match r.result with
  | .ok _ => .finished
  | .error _ => .stopped

variable (aes) in
/-- **The script works its worklist off**: turn by turn it is where the worklist is, and it ends as that does. -/
theorem rotate_ending (hb : takesLimit batch = true) (hv : fitsKeyVersion ring.current = true) (fuel : Nat) :
    ∀ (nonces : Nat → Nat → TokenColumn → Nonce) (failed : Nat) (t : Rows),
      (rotate aes ring true batch fuel nonces failed t).map Rotation.ending =
        Worklist.work (rowFate aes ring) batch.toNat fuel (stale ring t) := by
  induction fuel with
  | zero => exact fun _ _ _ => rfl
  | succ fuel ih =>
    intro nonces failed t
    have hraise : (∃ e, rotateBatch aes ring (nonces 0) (fun _ => false) batch.toNat t = .error e) ↔
        ∃ r ∈ (stale ring t).take batch.toNat, rowFate aes ring r = .stops := rotateBatch_raises hv
    have hany : (∃ r ∈ (stale ring t).take batch.toNat, rowFate aes ring r = .stops) ↔
        (((stale ring t).take batch.toNat).any fun r => decide (rowFate aes ring r = .stops)) = true := by
      simp only [List.any_eq_true, decide_eq_true_eq]
    rw [hany] at hraise
    rw [rotate, if_pos hb, Worklist.work, selectStale_eq]
    cases hr : rotateBatch aes ring (nonces 0) (fun _ => false) batch.toNat t with
    | error e =>
      have hstop := hraise.1 ⟨e, hr⟩
      have hne : ((stale ring t).take batch.toNat).isEmpty = false := by
        cases hl : (stale ring t).take batch.toNat with
        | nil =>
          rw [hl] at hstop
          cases hstop
        | cons a l => rfl
      simp only [hne, Bool.false_eq_true, if_false, hstop, if_true]
      rfl
    | ok t' =>
      have hstop : ¬ (((stale ring t).take batch.toNat).any fun r => decide (rowFate aes ring r = .stops)) = true := by
        intro hs
        obtain ⟨e, he⟩ := hraise.2 hs
        cases he.symm.trans hr
      simp only [if_neg hstop]
      split
      · rfl
      · rw [if_pos trivial, ih, stale_rotateBatch hv hr]

/-- **What a run makes of a row**: it is as it was, or it was stale and is re-encrypted. -/
theorem rotate_row (fuel : Nat) : ∀ {nonces : Nat → Nat → TokenColumn → Nonce} {failed : Nat} {t : Rows} {r : Rotation},
    rotate aes ring true batch fuel nonces failed t = some r → t.get n = some c →
      r.connections.get n = some c ∨ ∃ turn c', c.keyVersion < ring.current ∧
        rotateRow aes ring turn n c = .ok (some c') ∧ r.connections.get n = some c' := by
  induction fuel generalizing c with
  | zero =>
    intro nonces failed t r h hc
    cases h
  | succ fuel ih =>
    intro nonces failed t r h hc
    rw [rotate] at h
    split at h
    · split at h
      · cases h
        exact .inl hc
      next t' hr =>
        simp only at h
        split at h
        · cases h
          exact .inl hc
        · rw [if_pos trivial] at h
          rcases rotateBatch_eq_ok hr n with he | ⟨d, d', hd, hlt, hrow, he⟩
          · exact ih h (he.trans hc)
          · cases hd.symm.trans hc
            have hversion := (rotateRow_stored hrow).1.1
            rcases ih h he with hsame | ⟨turn, c'', hlt', -⟩
            · exact .inr ⟨nonces 0 n, d', hlt, hrow, hsame⟩
            · omega
    · cases h
      exact .inl hc

/-- A run that returns selected nothing at the end. -/
theorem rotate_empty (fuel : Nat) : ∀ {nonces : Nat → Nat → TokenColumn → Nonce} {failed : Nat} {t : Rows} {r : Rotation}
    {code : Nat}, rotate aes ring true batch fuel nonces failed t = some r → r.result = .ok code →
      (stale ring r.connections).take batch.toNat = [] := by
  induction fuel with
  | zero =>
    intro nonces failed t r code h hr
    cases h
  | succ fuel ih =>
    intro nonces failed t r code h hr
    rw [rotate] at h
    split at h
    · split at h
      · cases h
        cases hr
      next t' hbatch =>
        simp only at h
        split at h
        next hempty =>
          cases h
          rw [selectStale_eq, List.isEmpty_iff] at hempty
          exact hempty
        · rw [if_pos trivial] at h
          exact ih h hr
    · cases h
      cases hr

variable (aes) in
/-- A run that raises at the statement, before any row. -/
theorem rotate_refused (h : takesLimit batch = false ∨ fitsKeyVersion ring.current = false) (fuel : Nat)
    (nonces : Nat → Nat → TokenColumn → Nonce) (failed : Nat) (t : Rows) :
    ∃ e, rotate aes ring true batch (fuel + 1) nonces failed t = some ⟨.error e, t⟩ := by
  rw [rotate]
  by_cases hb : takesLimit batch = true
  · rw [if_pos hb]
    have hv : ¬ fitsKeyVersion ring.current = true := by
      rcases h with h | h
      · cases h.symm.trans hb
      · rw [h]
        exact Bool.false_ne_true
    simp only [rotateBatch, if_neg hv]
    exact ⟨_, rfl⟩
  · rw [if_neg hb]
    exact ⟨_, rfl⟩

/-! ## What a rotation is for -/

/-- **A rotation**: it ends, and where it returns, a row whose envelopes are all readable is stored under the current
version with the same plaintexts, and any other row is as it was. -/
structure Rotates (aes : AESGCM) (ring : Keyring) (batch : Int) (nonces : Nat → Nat → TokenColumn → Nonce) (t : Rows) :
    Prop where
  ends : ∃ fuel r, rotate aes ring true batch fuel nonces 0 t = some r
  stored : ∀ fuel r code, rotate aes ring true batch fuel nonces 0 t = some r → r.result = .ok code →
    ∀ n c, t.get n = some c → AllOpen aes ring n c → ∃ c', r.connections.get n = some c' ∧ StoredUnder ring c' ∧
      ∀ column, c'.opened aes ring n column = c.opened aes ring n column
  untouched : ∀ fuel r code, rotate aes ring true batch fuel nonces 0 t = some r → r.result = .ok code →
    ∀ n c, t.get n = some c → ¬ AllOpen aes ring n c → r.connections.get n = some c

/-- The first statement is refused, or a row that raises is reached: `rotate` raises. -/
def raises (aes : AESGCM) (ring : Keyring) (batch : Int) (t : Rows) : Bool :=
  !takesLimit batch || !fitsKeyVersion ring.current ||
    Worklist.reaches (rowFate aes ring) batch.toNat (stale ring t)

/-- The row is one the script selects. -/
def selects (ring : Keyring) (batch : Int) (c : ConnectionRow) : Prop := 0 < batch ∧ c.keyVersion < ring.current

/-- No row the script selects has an envelope that does not open, and those it does not select are stored as they
should be already. -/
structure Rotatable (aes : AESGCM) (ring : Keyring) (batch : Int) (t : Rows) : Prop where
  opens : ∀ n c, t.get n = some c → selects ring batch c → rowFate aes ring (n, c) ≠ .stays
  current : ∀ n c, t.get n = some c → ¬ selects ring batch c → AllOpen aes ring n c → StoredUnder ring c

section

variable (hb : takesLimit batch = true) (hv : fitsKeyVersion ring.current = true)
include hb hv

/-- **The run ends exactly where it raises or selects no row that stays.** -/
theorem rotate_ends_iff : (∃ fuel r, rotate aes ring true batch fuel nonces 0 t = some r) ↔
    Worklist.reaches (rowFate aes ring) batch.toNat (stale ring t) = true ∨
      ∀ n c, t.get n = some c → selects ring batch c → rowFate aes ring (n, c) ≠ .stays := by
  have hwork : (∃ fuel r, rotate aes ring true batch fuel nonces 0 t = some r) ↔
      ∃ fuel e, Worklist.work (rowFate aes ring) batch.toNat fuel (stale ring t) = some e := by
    refine exists_congr fun fuel => ?_
    rw [← rotate_ending aes hb hv fuel nonces 0 t]
    simp only [Option.map_eq_some_iff]
    constructor
    · rintro ⟨r, hr⟩
      exact ⟨_, r, hr, rfl⟩
    · rintro ⟨e, r, hr, -⟩
      exact ⟨r, hr⟩
  rw [hwork, Worklist.ends_iff]
  refine or_congr Iff.rfl ?_
  constructor
  · rintro h n c hc ⟨hpos, hlt⟩
    exact h (by omega) _ (mem_stale.2 ⟨hc, hlt⟩)
  · rintro h hk ⟨n, c⟩ hmem
    obtain ⟨hc, hlt⟩ := mem_stale.1 hmem
    exact h n c hc ⟨by omega, hlt⟩

/-- A run that returns reached no row that raises, and selected none that stays. -/
theorem rotate_returned {fuel failed : Nat} {r : Rotation} {code : Nat}
    (h : rotate aes ring true batch fuel nonces failed t = some r) (hr : r.result = .ok code) :
    Worklist.reaches (rowFate aes ring) batch.toNat (stale ring t) = false ∧
      (0 < batch.toNat → ∀ a ∈ stale ring t, rowFate aes ring a ≠ .stays) := by
  have hwork := rotate_ending aes hb hv fuel nonces failed t
  rw [h, Option.map_some, Rotation.ending, hr] at hwork
  rcases Worklist.work_eq_some hwork.symm with ⟨he, -⟩ | ⟨-, hreach, hstays⟩
  · cases he
  · exact ⟨hreach, hstays⟩

/-- A run that ends and reached no row that raises returned. -/
theorem rotate_returns {fuel : Nat} {r : Rotation} (h : rotate aes ring true batch fuel nonces 0 t = some r)
    (hreach : Worklist.reaches (rowFate aes ring) batch.toNat (stale ring t) = false) : ∃ code, r.result = .ok code := by
  have hwork := rotate_ending aes hb hv fuel nonces 0 t
  rw [h, Option.map_some] at hwork
  cases hr : r.result with
  | ok code => exact ⟨code, rfl⟩
  | error e =>
    rw [Rotation.ending, hr] at hwork
    rcases Worklist.work_eq_some hwork.symm with ⟨-, he⟩ | ⟨he, -⟩
    · cases he.symm.trans hreach
    · cases he

end

/-- A row the script does not select is never written. -/
theorem rotate_unselected {fuel : Nat} {r : Rotation} {code : Nat}
    (h : rotate aes ring true batch fuel nonces 0 t = some r) (hr : r.result = .ok code) (hc : t.get n = some c)
    (hs : ¬ selects ring batch c) : r.connections.get n = some c := by
  rcases rotate_row fuel h hc with hsame | ⟨turn, c', hlt, -, -⟩
  · exact hsame
  · have hzero : batch.toNat = 0 := by
      have hnot : ¬ 0 < batch := fun hpos => hs ⟨hpos, hlt⟩
      omega
    cases fuel with
    | zero => cases h
    | succ fuel =>
      rw [rotate, selectStale_eq, hzero, List.take_zero] at h
      split at h
      · split at h
        · cases h
          cases hr
        · cases h
          exact hc
      · cases h
        cases hr

/-- A row the script selects is re-encrypted by the time it returns. -/
theorem rotate_selected {fuel : Nat} {r : Rotation} {code : Nat}
    (h : rotate aes ring true batch fuel nonces 0 t = some r) (hr : r.result = .ok code) (hc : t.get n = some c)
    (hs : selects ring batch c) :
    ∃ turn c', rotateRow aes ring turn n c = .ok (some c') ∧ r.connections.get n = some c' := by
  rcases rotate_row fuel h hc with hsame | ⟨turn, c', -, hrow, hget⟩
  · have hmem : (n, c) ∈ stale ring r.connections := mem_stale.2 ⟨hsame, hs.2⟩
    rcases List.take_eq_nil_iff.1 (rotate_empty fuel h hr) with hzero | hnil
    · have hpos := hs.1
      omega
    · rw [hnil] at hmem
      cases hmem
  · exact ⟨turn, c', hrow, hget⟩

theorem rotates_of_refused (h : takesLimit batch = false ∨ fitsKeyVersion ring.current = false)
    (nonces : Nat → Nat → TokenColumn → Nonce) (t : Rows) : Rotates aes ring batch nonces t := by
  have hno : ∀ fuel r code, rotate aes ring true batch fuel nonces 0 t = some r → r.result ≠ .ok code := by
    intro fuel r code hrun hr
    cases fuel with
    | zero => cases hrun
    | succ fuel =>
      obtain ⟨e, he⟩ := rotate_refused aes h fuel nonces 0 t
      cases he.symm.trans hrun
      cases hr
  obtain ⟨e, he⟩ := rotate_refused aes h 0 nonces 0 t
  exact
    { ends := ⟨1, _, he⟩
      stored := fun fuel r code hrun hr => absurd hr (hno fuel r code hrun)
      untouched := fun fuel r code hrun hr => absurd hr (hno fuel r code hrun) }

/-- **A rotation ends, and leaves every row as it should be, exactly where the script raises or every row it selects
opens and every row it passes over is stored under the current version already.** -/
theorem rotates_iff (nonces : Nat → Nat → TokenColumn → Nonce) (t : Rows) :
    Rotates aes ring batch nonces t ↔ raises aes ring batch t = true ∨ Rotatable aes ring batch t := by
  by_cases hb : takesLimit batch = true
  · by_cases hv : fitsKeyVersion ring.current = true
    · have hraises : raises aes ring batch t = Worklist.reaches (rowFate aes ring) batch.toNat (stale ring t) := by
        rw [raises, hb, hv]
        rfl
      rw [hraises]
      constructor
      · intro h
        by_cases hreach : Worklist.reaches (rowFate aes ring) batch.toNat (stale ring t) = true
        · exact .inl hreach
        · right
          have hopens := ((rotate_ends_iff hb hv).1 h.ends).resolve_left hreach
          obtain ⟨fuel, r, hrun⟩ := h.ends
          obtain ⟨code, hr⟩ := rotate_returns hb hv hrun (Bool.eq_false_iff.2 hreach)
          refine ⟨hopens, fun n c hc hs hread => ?_⟩
          obtain ⟨c', hc', hstored, -⟩ := h.stored fuel r code hrun hr n c hc hread
          cases (rotate_unselected hrun hr hc hs).symm.trans hc'
          exact hstored
      · intro h
        refine ⟨(rotate_ends_iff hb hv).2 (h.imp_right Rotatable.opens), ?_, ?_⟩
        · intro fuel r code hrun hr n c hc hread
          by_cases hs : selects ring batch c
          · obtain ⟨turn, c', hrow, hget⟩ := rotate_selected hrun hr hc hs
            obtain ⟨hstored, hopened⟩ := rotateRow_stored hrow
            exact ⟨c', hget, hstored, hopened⟩
          · have hno := (rotate_returned hb hv hrun hr).1
            rcases h with h | h
            · cases hno.symm.trans h
            · exact ⟨c, rotate_unselected hrun hr hc hs, h.current n c hc hs hread, fun _ => rfl⟩
        · intro fuel r code hrun hr n c hc hread
          by_cases hs : selects ring batch c
          · obtain ⟨turn, c', hrow, -⟩ := rotate_selected hrun hr hc hs
            have hfate := rotateRow_fate aes ring turn n c
            cases hf : rowFate aes ring (n, c) with
            | leaves => exact absurd (allOpen_of_leaves hf) hread
            | stays =>
              rw [hf, hrow] at hfate
              cases hfate
            | stops =>
              rw [hf, hrow] at hfate
              obtain ⟨e, he⟩ := hfate
              cases he
          · exact rotate_unselected hrun hr hc hs
    · have hraises : raises aes ring batch t = true := by
        rw [raises, Bool.eq_false_iff.2 hv]
        simp
      exact ⟨fun _ => .inl hraises, fun _ => rotates_of_refused (.inr (Bool.eq_false_iff.2 hv)) nonces t⟩
  · have hraises : raises aes ring batch t = true := by
      rw [raises, Bool.eq_false_iff.2 hb]
      simp
    exact ⟨fun _ => .inl hraises, fun _ => rotates_of_refused (.inl (Bool.eq_false_iff.2 hb)) nonces t⟩

/-! ## An envelope that does not open -/

/-- One connection recorded under version 1, its access token not an envelope. -/
def brokenRows : Rows :=
  Table.empty.insert
    { userId := 0, provider := .gmail, externalAccountId := "7", displayName := "Ada"
      ct := fun column => if column = .accessTokenCt then some [0] else none }

/-- The keyring of a rotation from version 1 to version 2. -/
def sampleRing : Keyring := (Keyring.single 1 (sampleKey 1)).add 2 (sampleKey 2)

/-- The row is selected again in every turn, and `rotate` does not end. -/
theorem broken_row_loops : ¬ Rotates .plain sampleRing 50 (fun _ _ => (sampleEnv 0).nonces) brokenRows := by
  intro h
  rcases (rotate_ends_iff (by decide) (by decide)).1 h.ends with hreach | hopens
  · have hno : Worklist.reaches (rowFate .plain sampleRing) 50 (stale sampleRing brokenRows) = false := by decide
    cases hno.symm.trans hreach
  · exact hopens 0 _ rfl ⟨by decide, by decide⟩ (by decide)

end Connections
end SafeSend
