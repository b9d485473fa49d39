import SafeSend.Send.Store
/-!
# What an operation does

`sem` carries one operation out on the store.  A write with a text the database does not take cannot be carried out; what
is left to the environment is what a provider answers and the fresh key of a draft.
-/
namespace SafeSend
namespace Send

open Lib

abbrev SendProg := Prog Op Op.Ans

abbrev perform (o : Op) : SendProg o.Ans := Prog.perform o

def sem (settings : Settings) : (o : Op) → Env → Store → Option (o.Ans × Store)
  | .loadSend id, .none, w => some (w.sends.get id, w)
  | .loadDraft id, .none, w => some (w.drafts.get id, w)
  | .write id u, .none, w =>
    if u.storable then some (w.sends.affected id u.guard, w.updateSend id u.guard (u.row w.now)) else none
  | .bumpReconcileAttempts id, .none, w =>
    let w' := w.updateSend id (fun _ => true) bumpRow
    some (((w'.sends.get id).map SendRow.reconcileAttempts).getD 0, w')
  | .prepare _ _, .prepared r, w => some (r, w)
  | .sendCall provider request, .none, w =>
    some (w.calls.next, { w with calls := w.calls.insert { provider := provider, request := request } })
  | .sendAnswer _, .receipt r, w => some (r, w)
  | .probe _ _, .probed r, w => some (r, w)
  | .discard _ _, .finished r, w => some (r, w)
  | .recordSuccess id, .none, w =>
    some ((), { w with
      connections := w.connections.updateWhere id (fun c => c.status != .needsReconnect) fun c =>
        { c with status := .active } })
  | .adapterRun _, .finished r, w => some (r, w)
  | .recoverRow _, .none, w => some ((), w)
  | .clock, .none, w => some (w.now, w)
  | .draftOf id userId, .none, w => some ((w.drafts.get id).filter fun d => d.userId == userId, w)
  | .connectionById id, .none, w => some (w.connections.get id, w)
  | .firstConnection userId provider activeOnly, .none, w =>
    some (w.connections.first fun _ c =>
      c.userId == userId && c.provider == provider && (!activeOnly || c.status == .active), w)
  | .channelName _ _, .named r, w => some (r, w)
  | .insertDraft args, .key k, w =>
    if w.freshKey k then
      let row := Store.newDraft args k
      some ((w.drafts.next, row), { w with drafts := w.drafts.insert row })
    else none
  | .updateDraft id userId edit, .none, w => some (w.updateDraft id userId edit)
  | .loadSendByKey userId key, .none, w => some (w.sendByKey userId key, w)
  | .claimAndEnqueue args, .none, w => some (w.claimAndEnqueue settings args)
  | .sendOf id userId, .none, w => some ((w.sends.get id).filter fun s => s.userId == userId, w)
  | .operatorRetryWrite id userId partition, .none, w => some (w.operatorRetryWrite settings id userId partition)
  | .resolveWrite id userId resolution note partition, .none, w =>
    some (w.resolveWrite settings id userId resolution note partition)
  | _, _, _ => none

/-! ## What the worker's operations answer -/

variable {settings : Settings} {e : Env} {w w' : Store}

theorem sem_loadSend {id : Nat} {x : Option SendRow} (h : sem settings (.loadSend id) e w = some (x, w')) :
    w' = w ∧ x = w.sends.get id := by
  cases e <;> first | exact answer_of_some h | cases h

theorem sem_loadDraft {id : Nat} {x : Option DraftRow} (h : sem settings (.loadDraft id) e w = some (x, w')) :
    w' = w ∧ x = w.drafts.get id := by
  cases e <;> first | exact answer_of_some h | cases h

theorem sem_write {id : Nat} {u : Write} {x : Bool} (h : sem settings (.write id u) e w = some (x, w')) :
    w' = w.updateSend id u.guard (u.row w.now) ∧ x = w.sends.affected id u.guard := by
  cases e <;> first | exact answer_of_some (Option.ite_none_right_eq_some.1 h).2 | cases h

/-- What is written is storable. -/
theorem storable_of_sem {id : Nat} {u : Write} {x : Bool} (h : sem settings (.write id u) e w = some (x, w')) :
    u.storable = true := by
  cases e <;> first | exact (Option.ite_none_right_eq_some.1 h).1 | cases h

/-- A write of texts the database takes is carried out. -/
theorem sem_storable {u : Write} (h : u.storable = true) (id : Nat) (w : Store) :
    sem settings (.write id u) .none w = some (w.sends.affected id u.guard, w.updateSend id u.guard (u.row w.now)) := if_pos h

theorem sem_sendCall {provider : ProviderKind} {request : SendRequest} {x : Nat}
    (h : sem settings (.sendCall provider request) e w = some (x, w')) :
    w' = { w with calls := w.calls.insert { provider := provider, request := request } } ∧ x = w.calls.next := by
  cases e <;> first | exact answer_of_some h | cases h

theorem sem_prepare {provider : ProviderKind} {request : SendRequest} {x : Except Exn PreparedSend}
    (h : sem settings (.prepare provider request) e w = some (x, w')) : w' = w ∧ e = .prepared x := by
  cases e <;> first | exact (answer_of_some h).2 ▸ ⟨(answer_of_some h).1, rfl⟩ | cases h

theorem sem_sendAnswer {call : Nat} {x : Except Exn SendReceipt}
    (h : sem settings (.sendAnswer call) e w = some (x, w')) : w' = w ∧ e = .receipt x := by
  cases e <;> first | exact (answer_of_some h).2 ▸ ⟨(answer_of_some h).1, rfl⟩ | cases h

theorem sem_probe {provider : ProviderKind} {request : SendRequest} {x : Except Exn ProbeResult}
    (h : sem settings (.probe provider request) e w = some (x, w')) : w' = w ∧ e = .probed x := by
  cases e <;> first | exact (answer_of_some h).2 ▸ ⟨(answer_of_some h).1, rfl⟩ | cases h

theorem sem_draftOf {id userId : Nat} {x : Option DraftRow} (h : sem settings (.draftOf id userId) e w = some (x, w')) :
    w' = w ∧ x = (w.drafts.get id).filter fun d => d.userId == userId := by
  cases e <;> first | exact answer_of_some h | cases h

theorem sem_sendOf {id userId : Nat} {x : Option SendRow} (h : sem settings (.sendOf id userId) e w = some (x, w')) :
    w' = w ∧ x = (w.sends.get id).filter fun s => s.userId == userId := by
  cases e <;> first | exact answer_of_some h | cases h

end Send
end SafeSend
