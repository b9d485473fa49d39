import SafeSend.Isolation.Paired
/-!
# The jobs of a user

What the service does to the queue: a job is enqueued for a run or send of the user, or the latest job of a send is
resumed.  A job's dedupe key names its reference, so whether a live duplicate is there can be seen among the user's own
jobs, and the latest job of the user's send is one of them.
-/
namespace SafeSend
namespace Isolation

open Lib
open Database

variable {u id : Nat} {a b : Database} {settings : Settings} {now : Nat}

theorem keyOf_inj {kind kind' : JobKind} {id id' : Nat} (h : keyOf kind id = keyOf kind' id') : kind = kind' ∧ id = id' := by
  have hhead := congrArg (fun key => key.toList.head?) h
  unfold keyOf at h hhead
  simp only [String.toList_append] at hhead
  cases kind <;> cases kind'
  · exact ⟨rfl, toString_inj ((String.append_right_inj _).1 h)⟩
  · cases hhead
  · cases hhead
  · exact ⟨rfl, toString_inj ((String.append_right_inj _).1 h)⟩

theorem Database.ownsJob_congr {db : Database} {j j' : Queue.JobRow} (hkind : j'.kind = j.kind) (href : j'.refId = j.refId) :
    db.ownsJob u j' = db.ownsJob u j := by
  unfold ownsJob
  rw [hkind, href]

/-- The jobs after a statement on both databases. -/
theorem left_onJobs (h : (isolation u).Holds a b) {ja jb : Queue.Jobs}
    (hkeya : ∀ n j, ja.get n = some j → ∀ k ∈ j.dedupeKey, k = keyOf j.kind j.refId)
    (hrefa : ∀ n j, ja.get n = some j → ∀ k, a.drawn ≤ k → a.uuids k ≠ j.refId)
    (hkeyb : ∀ n j, jb.get n = some j → ∀ k ∈ j.dedupeKey, k = keyOf j.kind j.refId)
    (hrefb : ∀ n j, jb.get n = some j → ∀ k, b.drawn ≤ k → b.uuids k ≠ j.refId)
    (halike : Keyed.Alike (ja.rows.filter fun r => a.ownsJob u r.2) (jb.rows.filter fun r => b.ownsJob u r.2))
    (hothera : (ja.rows.filter fun r => !a.ownsJob u r.2) = a.jobs.rows.filter fun r => !a.ownsJob u r.2)
    (hotherb : (jb.rows.filter fun r => !b.ownsJob u r.2) = b.jobs.rows.filter fun r => !b.ownsJob u r.2) :
    (isolation u).Left a b { a with jobs := ja } { b with jobs := jb } :=
  ⟨⟨h.left.onJobs hkeya hrefa, h.right.onJobs hkeyb hrefb, h.agree.onJobs halike⟩, Confined.onJobs hothera,
    Confined.onJobs hotherb⟩

/-! ## Enqueue -/

/-- A key that names a reference of the user's has its duplicates among the user's jobs. -/
theorem duplicate_own {db : Database} (h : db.Sound) {j : Queue.JobRow} (hj : db.ownsJob u j = true)
    (hkey : ∀ k ∈ j.dedupeKey, k = keyOf j.kind j.refId) (r : Nat × Queue.JobRow) (hr : r ∈ db.jobs.rows)
    (hp : (r.2.dedupeKey == j.dedupeKey && r.2.live) = true) (hsome : j.dedupeKey.isSome = true) :
    db.ownsJob u r.2 = true := by
  obtain ⟨k, hk⟩ := Option.isSome_iff_exists.1 hsome
  have hrk : r.2.dedupeKey = some k := (beq_iff_eq.1 (Bool.and_eq_true_iff.1 hp).1).trans hk
  have hsame := (h.jobKey r.1 r.2 (Table.mem_rows.1 hr) k hrk).symm.trans (hkey k hk)
  obtain ⟨hkind, href⟩ := keyOf_inj hsame
  rw [ownsJob_congr hkind href]
  exact hj

theorem duplicate_congr (h : (isolation u).Holds a b) {j : Queue.JobRow} (hj : a.ownsJob u j = true)
    (hkey : ∀ k ∈ j.dedupeKey, k = keyOf j.kind j.refId) :
    Queue.duplicate a.jobs j.dedupeKey = Queue.duplicate b.jobs j.dedupeKey := by
  have hj' : b.ownsJob u j = true := h.agree.ownsJob ▸ hj
  unfold Queue.duplicate Table.any
  cases hsome : j.dedupeKey.isSome with
  | false => rfl
  | true =>
    rw [Keyed.any_own fun r hr hp => duplicate_own h.left hj hkey r hr hp hsome,
      Keyed.any_own fun r hr hp => duplicate_own h.right hj' hkey r hr hp hsome]
    exact congrArg _ (h.agree.jobs.any fun r => r.dedupeKey == j.dedupeKey && r.live)

/-- The jobs after an insertion of the user's. -/
theorem inserted {db : Database} (h : db.Sound) {j : Queue.JobRow} (hj : db.ownsJob u j = true)
    (hkey : ∀ k ∈ j.dedupeKey, k = keyOf j.kind j.refId) :
    (∀ n j', (db.jobs.insert j).get n = some j' → ∀ k ∈ j'.dedupeKey, k = keyOf j'.kind j'.refId) ∧
      (∀ n j', (db.jobs.insert j).get n = some j' → ∀ k, db.drawn ≤ k → db.uuids k ≠ j'.refId) ∧
      ((db.jobs.insert j).rows.filter fun r => db.ownsJob u r.2) =
        (db.jobs.rows.filter fun r => db.ownsJob u r.2) ++ [(db.jobs.next, j)] ∧
      ((db.jobs.insert j).rows.filter fun r => !db.ownsJob u r.2) = db.jobs.rows.filter fun r => !db.ownsJob u r.2 := by
  refine ⟨fun n j' hget => ?_, fun n j' hget k hk => ?_, ?_, ?_⟩
  · rcases Table.get_insert_cases hget with ⟨-, rfl⟩ | ⟨-, hget⟩
    · exact hkey
    · exact h.jobKey n j' hget
  · rcases Table.get_insert_cases hget with ⟨-, rfl⟩ | ⟨-, hget⟩
    · exact h.ref_of_own hj hk
    · exact fun he => (h.unused k hk).jobs n j' hget he.symm
  · rw [Table.rows_insert, List.filter_append]
    exact congrArg (_ ++ ·) (List.filter_cons_of_pos (p := fun r : Nat × Queue.JobRow => db.ownsJob u r.2) hj)
  · rw [Table.rows_insert]
    exact Confined.filter_append_own (p := fun r : Nat × Queue.JobRow => db.ownsJob u r.2) hj

/-- **An enqueue of the user's**: a job, or none where a live duplicate is there, in both databases. -/
theorem left_enqueue (h : (isolation u).Holds a b) {args : Queue.EnqueueArgs}
    (hj : a.ownsJob u (Queue.newRow settings now args) = true)
    (hkey : ∀ k ∈ args.dedupeKey, k = keyOf args.kind args.refId) :
    (Queue.enqueue settings now a.jobs args).1.isSome = (Queue.enqueue settings now b.jobs args).1.isSome ∧
      (isolation u).Left a b { a with jobs := (Queue.enqueue settings now a.jobs args).2 }
        { b with jobs := (Queue.enqueue settings now b.jobs args).2 } := by
  have hj' : b.ownsJob u (Queue.newRow settings now args) = true := h.agree.ownsJob ▸ hj
  have hdup := duplicate_congr h hj hkey
  have hdup' : Queue.duplicate a.jobs args.dedupeKey = Queue.duplicate b.jobs args.dedupeKey := hdup
  unfold Queue.enqueue
  rw [← hdup']
  cases Queue.duplicate a.jobs args.dedupeKey with
  | true => exact ⟨rfl, h.stay⟩
  | false =>
    obtain ⟨hkeya, hrefa, howna, hothera⟩ := inserted h.left hj hkey
    obtain ⟨hkeyb, hrefb, hownb, hotherb⟩ := inserted h.right hj' hkey
    exact ⟨rfl, left_onJobs h hkeya hrefa hkeyb hrefb ((h.agree.jobs.append _ _ _).of_eq howna hownb) hothera hotherb⟩

theorem both_enqueue (h : (isolation u).Holds a b) {args : Queue.EnqueueArgs}
    (hj : a.ownsJob u (Queue.newRow settings now args) = true)
    (hkey : ∀ k ∈ args.dedupeKey, k = keyOf args.kind args.refId) :
    (isolation u).Both (fun x y _ _ => x.isSome = y.isSome) (enqueue settings now args) (enqueue settings now args) a b := by
  obtain ⟨hsome, hleft⟩ := left_enqueue h hj hkey
  exact Coupling.Both.of_ok rfl rfl hleft hsome

/-! ## The operator's retry -/

/-- The jobs after the row of a number is resumed. -/
theorem resumed (now : Nat) {db : Database} (h : db.Sound) {m : Nat} {j : Queue.JobRow} (hget : db.jobs.get m = some j)
    (hj : db.ownsJob u j = true) (grant : Nat) :
    let jobs := db.jobs.updateWhere m Queue.resumable (Queue.resumeRow now grant)
    (∀ n j', jobs.get n = some j' → ∀ k ∈ j'.dedupeKey, k = keyOf j'.kind j'.refId) ∧
      (∀ n j', jobs.get n = some j' → ∀ k, db.drawn ≤ k → db.uuids k ≠ j'.refId) ∧
      (jobs.rows.filter fun r => db.ownsJob u r.2) = Keyed.alter (fun r => r.1 == m)
        (fun j => if Queue.resumable j then Queue.resumeRow now grant j else j)
        (db.jobs.rows.filter fun r => db.ownsJob u r.2) ∧
      (jobs.rows.filter fun r => !db.ownsJob u r.2) = db.jobs.rows.filter fun r => !db.ownsJob u r.2 := by
  intro jobs
  have hown : ∀ r ∈ db.jobs.rows, (r.1 == m) = true → db.ownsJob u r.2 = true ∧
      db.ownsJob u (if Queue.resumable r.2 then Queue.resumeRow now grant r.2 else r.2) = true := by
    intro r hr hm
    have hrj : r.2 = j := by
      have hr' := Table.mem_rows.1 hr
      rw [beq_iff_eq.1 hm, hget] at hr'
      exact (Option.some.inj hr').symm
    rw [hrj]
    refine ⟨hj, ?_⟩
    split
    · exact hj
    · exact hj
  refine ⟨fun n j' hn => ?_, fun n j' hn k hk => ?_, ?_, ?_⟩
  · rcases db.jobs.get_updateWhere_cases m Queue.resumable (Queue.resumeRow now grant) n with hs | ⟨rfl, j₀, hj₀, -, hs⟩
    · exact h.jobKey n j' (hs ▸ hn)
    · obtain rfl := Option.some.inj (hs.symm.trans hn)
      exact h.jobKey n j₀ hj₀
  · rcases db.jobs.get_updateWhere_cases m Queue.resumable (Queue.resumeRow now grant) n with hs | ⟨rfl, j₀, hj₀, -, hs⟩
    · exact fun he => (h.unused k hk).jobs n j' (hs ▸ hn) he.symm
    · obtain rfl := Option.some.inj (hs.symm.trans hn)
      exact fun he => (h.unused k hk).jobs n j₀ hj₀ he.symm
  · show (Table.rows _).filter _ = _
    rw [Keyed.rows_updateWhere]
    exact Keyed.filter_alter hown
  · show (Table.rows _).filter _ = _
    rw [Keyed.rows_updateWhere]
    exact Keyed.filter_not_alter (fun r : Nat × Queue.JobRow => db.ownsJob u r.2) hown

/-- **The latest job of the user's send is one job in both databases**, and comes to the same where it is resumed. -/
theorem latest_retried (now : Nat) (h : (isolation u).Holds a b) (hs : a.ownsSend u id = true) :
    Send.Store.latestSendJob a.jobs id = none ∧ Send.Store.latestSendJob b.jobs id = none ∨
      ∃ m n, Send.Store.latestSendJob a.jobs id = some m ∧ Send.Store.latestSendJob b.jobs id = some n ∧
        (Queue.operatorRetry now a.jobs m = none ∧ Queue.operatorRetry now b.jobs n = none ∨
          ∃ hit ja jb, Queue.operatorRetry now a.jobs m = some (hit, ja) ∧
            Queue.operatorRetry now b.jobs n = some (hit, jb) ∧
              (isolation u).Left a b { a with jobs := ja } { b with jobs := jb }) := by
  have hs' : b.ownsSend u id = true := h.agree.ownsSend ▸ hs
  have hview (db : Database) (hdb : db.ownsSend u id = true) :
      db.jobs.latest (fun _ j => j.kind == .send && j.refId == id) =
        ((db.jobs.rows.filter fun r => db.ownsJob u r.2).filter fun r => r.2.kind == .send && r.2.refId == id).getLast? := by
    unfold Table.latest
    rw [Keyed.filter_own (fun r => db.ownsJob u r.2) fun r _ he => ?_]
    obtain ⟨hkind, href⟩ := Bool.and_eq_true_iff.1 he
    unfold Database.ownsJob
    rw [beq_iff_eq.1 hkind, beq_iff_eq.1 href]
    exact hdb
  have hkeys (db : Database) : ((db.jobs.rows.filter fun r => db.ownsJob u r.2).map Prod.fst).Nodup :=
    (Keyed.nodup_rows db.jobs).sublist (List.Sublist.map _ List.filter_sublist)
  unfold Send.Store.latestSendJob
  rw [hview a hs, hview b hs']
  rcases h.agree.jobs.latest (hkeys a) (hkeys b) fun j => j.kind == .send && j.refId == id with
    ⟨hna, hnb⟩ | ⟨m, n, j, hm, hn, halter⟩
  · rw [hna, hnb]
    exact .inl ⟨rfl, rfl⟩
  · refine .inr ⟨m, n, by rw [hm]; rfl, by rw [hn]; rfl, ?_⟩
    obtain ⟨hma, howna⟩ := List.mem_filter.1 (List.mem_filter.1 (List.mem_of_getLast? hm)).1
    obtain ⟨hmb, hownb⟩ := List.mem_filter.1 (List.mem_filter.1 (List.mem_of_getLast? hn)).1
    have hgeta : a.jobs.get m = some j := Table.mem_rows.1 hma
    have hgetb : b.jobs.get n = some j := Table.mem_rows.1 hmb
    have hdup := duplicate_congr h howna (h.left.jobKey m j hgeta)
    have hretry (db : Database) (k : Nat) (hget : db.jobs.get k = some j) : Queue.operatorRetry now db.jobs k =
        if (Queue.resumable j && Queue.duplicate db.jobs j.dedupeKey) = true then none
        else some (Queue.resumable j, db.jobs.updateWhere k Queue.resumable (Queue.resumeRow now 1)) := by
      unfold Queue.operatorRetry Table.affected
      rw [hget]
      rfl
    rw [hretry a m hgeta, hretry b n hgetb, ← hdup]
    split
    · exact .inl ⟨rfl, rfl⟩
    · obtain ⟨hkeya, hrefa, ha, hothera⟩ := resumed now h.left hgeta howna 1
      obtain ⟨hkeyb, hrefb, hb, hotherb⟩ := resumed now h.right hgetb hownb 1
      exact .inr ⟨_, _, _, rfl, rfl, left_onJobs h hkeya hrefa hkeyb hrefb ((halter _).of_eq ha hb) hothera hotherb⟩

theorem ownsJob_retryJob {db : Database} {partition : String} (hs : db.ownsSend u id = true) :
    db.ownsJob u (Queue.newRow settings now (Send.Store.retryJob id partition)) = true := hs

theorem same_onJobs {f : Queue.Jobs → Option Queue.Jobs}
    (h : f a.jobs = none ∧ f b.jobs = none ∨ ∃ ja jb, f a.jobs = some ja ∧ f b.jobs = some jb ∧
      (isolation u).Left a b { a with jobs := ja } { b with jobs := jb }) : Same u anything (onJobs f) a b := by
  unfold Same onJobs
  rcases h with ⟨ha, hb⟩ | ⟨ja, jb, ha, hb, hleft⟩
  · refine Coupling.Both.of_error (e := .gate (.db .uniqueViolation)) ?_ ?_
    · simp only [ha]
    · simp only [hb]
  · refine Coupling.Both.of_ok (x := ()) (y := ()) ?_ ?_ hleft ⟨rfl, trivial⟩
    · simp only [ha]
    · simp only [hb]

theorem same_retryJobs (h : (isolation u).Holds a b) (hs : a.ownsSend u id = true) (A : Around) (partition : String) :
    Same u anything (onJobs (retryJobs A id partition)) a b := by
  refine same_onJobs ?_
  unfold retryJobs
  rcases latest_retried A.now h hs with
    ⟨ha, hb⟩ | ⟨m, n, ha, hb, ⟨hra, hrb⟩ | ⟨hit, ja, jb, hra, hrb, hleft⟩⟩
  · rw [ha, hb]
    exact .inr ⟨_, _, rfl, rfl, (left_enqueue h (ownsJob_retryJob hs) fun k hk => by cases hk).2⟩
  · simp only [ha, hb, hra, hrb]
    exact .inl ⟨rfl, rfl⟩
  · simp only [ha, hb, hra, hrb]
    exact .inr ⟨ja, jb, rfl, rfl, hleft⟩

theorem same_resumeOrEnqueue (h : (isolation u).Holds a b) (hs : a.ownsSend u id = true) (partition : String) :
    Same u anything (onJobs fun jobs => Send.Store.resumeOrEnqueue settings now jobs id partition) a b := by
  refine same_onJobs ?_
  unfold Send.Store.resumeOrEnqueue
  rcases latest_retried now h hs with
    ⟨ha, hb⟩ | ⟨m, n, ha, hb, ⟨hra, hrb⟩ | ⟨hit, ja, jb, hra, hrb, hleft⟩⟩
  · simp only [ha, hb]
    exact .inr ⟨_, _, rfl, rfl, (left_enqueue h (ownsJob_retryJob hs) fun k hk => by cases hk).2⟩
  · simp only [ha, hb, hra, hrb]
    exact .inl ⟨rfl, rfl⟩
  · simp only [ha, hb, hra, hrb]
    cases hit with
    | true => exact .inr ⟨ja, jb, rfl, rfl, hleft⟩
    | false =>
      -- the job was not resumable: another is enqueued beside it
      exact .inr ⟨_, _, rfl, rfl,
        hleft.trans (left_enqueue hleft.holds (ownsJob_retryJob hs) fun k hk => by cases hk).2⟩

end Isolation
end SafeSend
