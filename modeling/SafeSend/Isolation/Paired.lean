import SafeSend.Isolation.Agree
/-!
# A user's statements on two databases

Each statement, made of two databases that agree on its user, is refused by both for one reason or answers alike, and
leaves two that agree.  What it writes must be the user's: a fresh id, the user's own connection, draft, send or search,
and nothing in reply to another user's result.
-/
namespace SafeSend
namespace Isolation

open Lib
open Send (ConnectionRow)

def isolation (u : Nat) : Coupling Database where
  inv := Database.Sound
  agree := Agree u
  may := Confined u
  refl := Confined.refl u
  trans := Confined.trans

/-- Both answer the same, and `P` holds of the answer, or both are refused alike. -/
def Same {α : Type} (u : Nat) (P : α → Database → Database → Prop) (p : Tx α) (a b : Database) : Prop :=
  (isolation u).Both (fun x y a' b' => y = x ∧ P x a' b') p p a b

variable {α β : Type} {u id : Nat} {a b a' b' : Database}

/-- Nothing further is known of an answer. -/
abbrev anything : α → Database → Database → Prop := fun _ _ _ => True

namespace Same

variable {P : α → Database → Database → Prop} {R : β → Database → Database → Prop} {p : Tx α} {f : α → Tx β}

theorem pure {x : α} (h : (isolation u).Holds a b) (hP : P x a b) : Same u P (Pure.pure x : Tx α) a b :=
  Coupling.Both.pure h ⟨rfl, hP⟩

theorem refuse (e : Refusal) : Same u P (Tx.refuse e : Tx α) a b := Coupling.Both.refuse e

theorem read {f : Database → α} (h : (isolation u).Holds a b) (hf : f a = f b) (hP : P (f a) a b) :
    Same u P (Tx.read f : Tx α) a b := Coupling.Both.read h ⟨hf.symm, hP⟩

theorem write {f : Database → Database} {P : Unit → Database → Database → Prop}
    (h : (isolation u).Left a b (f a) (f b)) (hP : P () (f a) (f b)) : Same u P (Tx.write f : Tx Unit) a b :=
  Coupling.Both.write h ⟨rfl, hP⟩

theorem bind (h : Same u P p a b)
    (hk : ∀ x a' b', (isolation u).Left a b a' b' → P x a' b' → Same u R (f x) a' b') : Same u R (p >>= f) a b := by
  refine Coupling.Both.bind h fun x y a' b' hleft hxy => ?_
  rw [hxy.1]
  exact hk x a' b' hleft hxy.2

theorem mono {Q : α → Database → Database → Prop} (h : Same u P p a b)
    (hQ : ∀ x a' b', (isolation u).Left a b a' b' → P x a' b' → Q x a' b') : Same u Q p a b :=
  Coupling.Both.mono h fun x _ a' b' hleft hxy => ⟨hxy.1, hQ x a' b' hleft hxy.2⟩

/-- **A statement that both databases take or refuse for one reason.** -/
theorem constrained {texts : List String} {check : Bool} (free refers : Database → Bool) {x : α}
    {f : Database → Database} (hfree : free a = free b) (hrefers : refers a = refers b)
    (hleft : (isolation u).Left a b (f a) (f b)) (hP : P x (f a) (f b)) :
    Same u P (fun db => (constrain texts check (free db) (refers db)).bind fun _ => .ok (x, f db)) a b := by
  have hconstrain : constrain texts check (free a) (refers a) = constrain texts check (free b) (refers b) := by
    rw [hfree, hrefers]
  cases hr : constrain texts check (free a) (refers a) with
  | error e =>
    refine Coupling.Both.of_error (e := e) ?_ ?_
    · show Except.bind _ _ = _
      rw [hr]
      rfl
    · show Except.bind _ _ = _
      rw [← hconstrain, hr]
      rfl
  | ok y =>
    refine Coupling.Both.of_ok ?_ ?_ hleft ⟨rfl, hP⟩
    · show Except.bind _ _ = _
      rw [hr]
      rfl
    · show Except.bind _ _ = _
      rw [← hconstrain, hr]
      rfl

end Same

/-! ## What both hold -/

namespace Database

variable {db : Database}

theorem Unused.free_search (h : db.Unused id) : (db.searches.any fun r => r.1 == id) = false :=
  List.any_eq_false.2 fun r hr he => h.searches r hr (beq_iff_eq.1 he)

theorem Unused.free_run (h : db.Unused id) : (db.runs.any fun r => r.1 == id) = false :=
  List.any_eq_false.2 fun r hr he => h.runs r hr (beq_iff_eq.1 he)

theorem Unused.free_send (h : db.Unused id) : (db.sends.any fun r => r.1 == id) = false :=
  List.any_eq_false.2 fun r hr he => h.sends r hr (beq_iff_eq.1 he)

theorem Unused.draftFree (h : db.Unused id) (row : DraftRow) : db.draftFree id row =
    !db.drafts.any fun r => r.2.userId == row.userId && r.2.idempotencyKey == row.idempotencyKey := by
  unfold Database.draftFree
  congr 1
  exact Keyed.any_congr_mem fun r hr => by rw [beq_false_of_ne (h.drafts r hr), Bool.false_or]

theorem any_of_mem {γ : Type} {t : List (Nat × γ)} {x : γ} (h : (id, x) ∈ t) : (t.any fun r => r.1 == id) = true :=
  List.any_eq_true.2 ⟨_, h, beq_self_eq_true id⟩

/-- Whether there is a result that is no other user's can be seen among the user's own. -/
theorem any_result {k : Nat} (h : ¬ db.Foreign u k) :
    (db.results.any fun r => r.1 == k) = db.results.any fun r => r.1 == k && db.ownsSearch u r.2.searchId := by
  refine Keyed.any_congr_mem fun r hr => ?_
  cases hk : r.1 == k with
  | false => rfl
  | true =>
    cases hown : db.ownsSearch u r.2.searchId with
    | true => rfl
    | false => exact absurd ⟨r, hr, beq_iff_eq.1 hk, hown⟩ h

theorem Sound.ref_of_own (h : db.Sound) {j : Queue.JobRow} (hj : db.ownsJob u j = true) {k : Nat} (hk : db.drawn ≤ k) :
    db.uuids k ≠ j.refId := by
  intro he
  unfold ownsJob at hj
  cases hkind : j.kind with
  | adapterRun =>
    rw [hkind] at hj
    obtain ⟨r, hr, -⟩ := ownsRun_iff.1 hj
    exact (h.unused k hk).runs _ hr he.symm
  | send =>
    rw [hkind] at hj
    obtain ⟨s, hs, -⟩ := ownsSend_iff.1 hj
    exact (h.unused k hk).sends _ hs he.symm

end Database

open Database

/-- The user's connection, in both databases. -/
def HasConnection (u n : Nat) (a : Database) : Prop := ∃ c, a.connections.get n = some c ∧ c.userId = u

theorem Agree.hasConnection {n : Nat} (h : Agree u a b) (hc : HasConnection u n a) : HasConnection u n b := by
  obtain ⟨c, hget, hu⟩ := hc
  exact ⟨c, h.connection hget hu, hu⟩

theorem Confined.hasConnection {n : Nat} (h : Confined u a a') (hc : HasConnection u n a) : HasConnection u n a' := by
  unfold HasConnection
  rw [h.connections]
  exact hc

theorem HasConnection.isSome {n : Nat} (h : HasConnection u n a) : (a.connections.get n).isSome = true := by
  obtain ⟨c, hget, -⟩ := h
  rw [hget]
  rfl

/-! ## Statements -/

/-- A draw leaves the rows as they are. -/
theorem same_drawn (h : (isolation u).Holds a b) :
    Same u (fun x a' b' => (a' = { a with drawn := a.drawn + 1 } ∧ b' = { b with drawn := b.drawn + 1 }) ∧
      a'.Drawn x ∧ b'.Drawn x) draw a b := by
  have hx : b.uuids b.drawn = a.uuids a.drawn := by rw [h.agree.uuids, h.agree.drawn]
  exact Coupling.Both.of_ok rfl rfl
    ⟨⟨h.left.draw, h.right.draw, h.agree.draw⟩, Confined.draw u a, Confined.draw u b⟩
    ⟨hx, ⟨rfl, rfl⟩, h.left.drawn, hx ▸ h.right.drawn⟩

theorem same_draw (h : (isolation u).Holds a b) : Same u (fun x a' b' => a'.Drawn x ∧ b'.Drawn x) draw a b :=
  (same_drawn h).mono fun _ _ _ _ hx => hx.2

theorem same_insertDraft (h : (isolation u).Holds a b) (hida : a.Drawn id) (hidb : b.Drawn id) {row : DraftRow}
    (hu : row.userId = u) (hc : HasConnection u row.connectionId a)
    (hra : ∀ k ∈ row.inReplyToResultId, ¬ a.Foreign u k) (hrb : ∀ k ∈ row.inReplyToResultId, ¬ b.Foreign u k) :
    Same u anything (insertDraft id row) a b := by
  subst hu
  have hfree : a.draftFree id row = b.draftFree id row := by
    rw [hida.unused.draftFree, hidb.unused.draftFree]
    exact congrArg not (Keyed.any_congr (fun _ _ hp => (Bool.and_eq_true_iff.1 hp).1)
      (fun _ _ hp => (Bool.and_eq_true_iff.1 hp).1) h.agree.drafts)
  have hrefers : a.draftRefers row = b.draftRefers row := by
    have hreply : (row.inReplyToResultId.all fun k => a.results.any fun r => r.1 == k) =
        row.inReplyToResultId.all fun k => b.results.any fun r => r.1 == k := by
      cases hk : row.inReplyToResultId with
      | none => rfl
      | some k =>
        show a.results.any _ = b.results.any _
        have hresults := h.agree.results
        rw [any_result (hra k hk), any_result (hrb k hk), ← h.agree.ownsSearch]
        rw [← h.agree.ownsSearch] at hresults
        exact Keyed.any_congr (fun _ _ => second) (fun _ _ => second) hresults
    unfold Database.draftRefers
    rw [h.agree.user, hc.isSome, (h.agree.hasConnection hc).isSome, hreply]
  obtain ⟨c, hget, hcu⟩ := hc
  refine Same.constrained (fun db => db.draftFree id row) (fun db => db.draftRefers row) hfree hrefers ?_ trivial
  exact ⟨⟨h.left.insertDraft hida hget hcu, h.right.insertDraft hidb (h.agree.connection hget hcu) hcu,
      h.agree.insertDraft id row⟩,
    Confined.insertDraft a id rfl hra, Confined.insertDraft b id rfl hrb⟩

theorem draftOf_mem {db : Database} {d : DraftRow} (hd : db.draftOf u id = some d) : (id, d) ∈ db.drafts ∧ d.userId = u := by
  obtain ⟨⟨n, d'⟩, hr, rfl⟩ := Option.map_eq_some_iff.1 hd
  obtain ⟨hn, hu⟩ := Bool.and_eq_true_iff.1
    (List.find?_some (p := fun r : Nat × DraftRow => r.1 == id && r.2.userId == u) hr)
  exact ⟨beq_iff_eq.1 hn ▸ List.mem_of_find?_eq_some hr, beq_iff_eq.1 hu⟩

theorem sendOf_mem {db : Database} {s : SendRow} (hs : db.sendOf u id = some s) : (id, s) ∈ db.sends ∧ s.userId = u := by
  obtain ⟨⟨n, s'⟩, hr, rfl⟩ := Option.map_eq_some_iff.1 hs
  obtain ⟨hn, hu⟩ := Bool.and_eq_true_iff.1
    (List.find?_some (p := fun r : Nat × SendRow => r.1 == id && r.2.userId == u) hr)
  exact ⟨beq_iff_eq.1 hn ▸ List.mem_of_find?_eq_some hr, beq_iff_eq.1 hu⟩

/-- A draft of the user goes out through a connection of the user. -/
theorem Database.Sound.draftOf_connection {db : Database} (h : db.Sound) {d : DraftRow} (hd : db.draftOf u id = some d) :
    HasConnection u d.connectionId db := by
  obtain ⟨hmem, hu⟩ := draftOf_mem hd
  obtain ⟨c, hget, hcu⟩ := h.draftConnection _ hmem
  exact ⟨c, hget, hcu.trans hu⟩

theorem same_writeDraft (h : (isolation u).Holds a b) (id : Nat) (e : Send.DraftEdit) :
    Same u (fun row a' _ => HasConnection u row.connectionId a') (writeDraft u id e) a b := by
  have hsame := h.agree.draftOf id
  cases hd : a.draftOf u id with
  | none =>
    refine Coupling.Both.of_error (e := .gate (.db .noRow)) ?_ ?_
    · unfold writeDraft
      rw [hd]
    · unfold writeDraft
      rw [← hsame, hd]
  | some d =>
    have hrun (db : Database) (hdb : db.draftOf u id = some d) : writeDraft u id e db =
        (constrain ([e.recipient, e.recipientDisplay] ++ e.subject.toList ++ e.body.toList) (d.edited e).checks true
          true).bind fun _ => .ok (d.edited e, db.updateDraft u id e) := by
      unfold writeDraft
      rw [hdb]
      rfl
    have hc : HasConnection u d.connectionId a := h.left.draftOf_connection hd
    have hleft : (isolation u).Left a b (a.updateDraft u id e) (b.updateDraft u id e) :=
      ⟨⟨h.left.updateDraft u id e, h.right.updateDraft u id e, h.agree.updateDraft id e⟩,
        Confined.updateDraft u id e a, Confined.updateDraft u id e b⟩
    have hboth : Same u (fun row a' _ => HasConnection u row.connectionId a')
        (fun db => (constrain ([e.recipient, e.recipientDisplay] ++ e.subject.toList ++ e.body.toList) (d.edited e).checks
          true true).bind fun _ => .ok (d.edited e, db.updateDraft u id e)) a b :=
      Same.constrained (fun _ => true) (fun _ => true) rfl rfl hleft hc
    unfold Same Coupling.Both at hboth ⊢
    rw [hrun a hd, hrun b (hsame ▸ hd)]
    exact hboth

theorem same_insertSend (h : (isolation u).Holds a b) (hida : a.Drawn id) (hidb : b.Drawn id) {row : SendRow}
    (hu : row.userId = u) {d : DraftRow} (hd : (row.draftId, d) ∈ a.drafts) (hdu : d.userId = u)
    (hc : HasConnection u row.connectionId a) :
    Same u (fun _ a' _ => a'.ownsSend u id = true) (insertSend id row) a b := by
  subst hu
  have hd' : (row.draftId, d) ∈ b.drafts := h.agree.draft hd hdu
  have hrefers : a.sendRefers row = b.sendRefers row := by
    unfold Database.sendRefers
    rw [h.agree.user, hc.isSome, (h.agree.hasConnection hc).isSome, any_of_mem hd, any_of_mem hd']
  have hfree : (!a.sends.any fun r => r.1 == id) = !b.sends.any fun r => r.1 == id := by
    rw [hida.unused.free_send, hidb.unused.free_send]
  obtain ⟨c, hget, hcu⟩ := hc
  refine Same.constrained (fun db => !db.sends.any fun r => r.1 == id) (fun db => db.sendRefers row) hfree hrefers ?_ ?_
  · exact ⟨⟨h.left.insertSend hida hd hdu hget hcu, h.right.insertSend hidb hd' hdu (h.agree.connection hget hcu) hcu,
        h.agree.insertSend h.left h.right hida.unused hidb.unused row⟩,
      Confined.insertSend h.left hida.unused rfl, Confined.insertSend h.right hidb.unused rfl⟩
  · exact ownsSend_iff.2 ⟨row, List.mem_append_right _ (List.mem_singleton.2 rfl), rfl⟩

theorem left_updateSend (h : (isolation u).Holds a b) (id : Nat) (guard : Send.SendRow → Bool)
    {f : Send.SendRow → Send.SendRow} (hf : Settles f) :
    (isolation u).Left a b (a.updateSend u id guard f) (b.updateSend u id guard f) :=
  ⟨⟨h.left.updateSend u id guard hf, h.right.updateSend u id guard hf, h.agree.updateSend id guard hf⟩,
    Confined.updateSend u id guard hf a, Confined.updateSend u id guard hf b⟩

theorem same_insertResolution (h : (isolation u).Holds a b) {row : ResolutionRow} (hu : row.userId = u)
    (hs : a.ownsSend u row.sendId = true) :
    Same u (fun _ a' _ => a'.ownsSend u row.sendId = true) (insertResolution row) a b := by
  subst hu
  have hs' : b.ownsSend row.userId row.sendId = true := h.agree.ownsSend ▸ hs
  obtain ⟨s, hsa, hsu⟩ := ownsSend_iff.1 hs
  obtain ⟨s', hsb, hsu'⟩ := ownsSend_iff.1 hs'
  have hrefers : a.resolutionRefers row = b.resolutionRefers row := by
    unfold Database.resolutionRefers
    rw [h.agree.user, any_of_mem hsa, any_of_mem hsb]
  refine Same.constrained (fun _ => true) (fun db => db.resolutionRefers row) rfl hrefers ?_ hs
  exact ⟨⟨h.left.insertResolution hsa hsu, h.right.insertResolution hsb hsu', h.agree.insertResolution hs⟩,
    Confined.insertResolution a hs, Confined.insertResolution b hs'⟩

theorem same_insertSearch (h : (isolation u).Holds a b) (hida : a.Drawn id) (hidb : b.Drawn id) {row : SearchRow}
    (hu : row.userId = u) : Same u (fun _ a' _ => a'.ownsSearch u id = true) (insertSearch id row) a b := by
  subst hu
  have hfree : (!a.searches.any fun r => r.1 == id) = !b.searches.any fun r => r.1 == id := by
    rw [hida.unused.free_search, hidb.unused.free_search]
  refine Same.constrained (fun db => !db.searches.any fun r => r.1 == id) (fun db => db.users.contains row.userId) hfree
    h.agree.user ?_ ?_
  · exact ⟨⟨h.left.insertSearch hida row, h.right.insertSearch hidb row,
        h.agree.insertSearch h.left h.right hida.unused hidb.unused row⟩,
      Confined.insertSearch h.left hida.unused rfl, Confined.insertSearch h.right hidb.unused rfl⟩
  · exact ownsSearch_iff.2 ⟨row, List.mem_append_right _ (List.mem_singleton.2 rfl), rfl⟩

theorem same_insertRun (h : (isolation u).Holds a b) (hida : a.Drawn id) (hidb : b.Drawn id)
    {row : Search.AdapterRunRow} (hs : a.ownsSearch u row.searchId = true)
    (hc : ∀ n ∈ row.connectionId, HasConnection u n a) :
    Same u (fun _ a' _ => a'.ownsRun u id = true) (insertRun id row) a b := by
  have hs' : b.ownsSearch u row.searchId = true := h.agree.ownsSearch ▸ hs
  obtain ⟨s, hsa, hsu⟩ := ownsSearch_iff.1 hs
  obtain ⟨s', hsb, hsu'⟩ := ownsSearch_iff.1 hs'
  have hfree : (!a.runs.any fun r => r.1 == id) = !b.runs.any fun r => r.1 == id := by
    rw [hida.unused.free_run, hidb.unused.free_run]
  have hrefers : a.runRefers row = b.runRefers row := by
    unfold Database.runRefers
    rw [any_of_mem hsa, any_of_mem hsb]
    cases hn : row.connectionId with
    | none => rfl
    | some n =>
      show (true && (a.connections.get n).isSome) = (true && (b.connections.get n).isSome)
      rw [(hc n hn).isSome, (h.agree.hasConnection (hc n hn)).isSome]
  refine Same.constrained (fun db => !db.runs.any fun r => r.1 == id) (fun db => db.runRefers row) hfree hrefers ?_ ?_
  · refine ⟨⟨h.left.insertRun hida hsa fun n hn => ?_, h.right.insertRun hidb hsb fun n hn => ?_,
      h.agree.insertRun hida.unused hidb.unused row⟩, Confined.insertRun hida.unused hs, Confined.insertRun hidb.unused hs'⟩
    · rw [hsu]
      exact hc n hn
    · rw [hsu']
      exact h.agree.hasConnection (hc n hn)
  · exact ownsRun_iff.2 ⟨row, List.mem_append_right _ (List.mem_singleton.2 rfl), hs⟩

end Isolation
end SafeSend
