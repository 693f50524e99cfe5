import Trueup.Chat.TurnAdmission

/-! # Sessions that stay locked

A session is streaming from the commit of `begin_turn` to that of the `finally` of `stream_turn`.
The `finally` is not run when the process dies, nor when the client goes away before the first
event: the generator has not been started then, and closing it does nothing.

* `GoingToRelease`: the turn of a process is in progress, and the statements that are left of it
  make the session idle.
* `released_iff`: every streaming session has such a turn, in every state of a run, exactly when no
  process dies with a turn in progress and no client goes away before the first event.
* `stays_streaming`: a session without one is streaming for good. -/

namespace Trueup.Chat

open Trueup.Core Trueup.Models Trueup.Lib

/-- What is left of a turn: the events come to an end, and the `finally` is run. -/
def Phase.remaining : Phase → List Action
  | .begun _ => [.start, .stop, .endTurn, .commit]
  | .streaming _ => [.stop, .endTurn, .commit]
  | .ending _ => [.endTurn, .commit]
  | .ended _ => [.commit]
  | _ => []

/-- The process does not die with a turn in progress, and the client does not go away between
`begin_turn` and the first event. -/
def Survives : Action → Phase → Prop
  | .crash, phase => phase.turn = none
  | .disconnect, .begun _ => False
  | _, _ => True

instance (a : Action) (phase : Phase) : Decidable (Survives a phase) := by
  unfold Survives
  split <;> infer_instance

section Released
variable {ι : Type} [DecidableEq ι] (hashtext : Uuid → ℤ) (dailyQueryCap : ℤ)

/-- The turn of the process is in progress in the session, and what is left of it makes the session
idle. -/
structure GoingToRelease (i : ι) (session : ChatSession) (c : Processes.Config ι (Shared ι) Phase) :
    Prop where
  turn : (c.locals i).turn = some session.id
  releases : (Processes.run (program hashtext dailyQueryCap) ((c.locals i).remaining.map (i, ·))
    c).shared.tables.sessions.find session.id = some { session with status := .idle }

/-- Every streaming session has a turn that is going to release it. -/
def Released (c : Processes.Config ι (Shared ι) Phase) : Prop :=
  ∀ session ∈ c.shared.tables.sessions, session.status = .streaming →
    ∃ i, GoingToRelease hashtext dailyQueryCap i session c

variable {hashtext dailyQueryCap} {i j : ι} {a : Action} {shared shared' : Shared ι}
  {phase phase' : Phase} {sessionId : Uuid} {session : ChatSession}
  {c : Processes.Config ι (Shared ι) Phase}

/-! ### What is left of a turn -/

omit [DecidableEq ι] in
/-- No other process has locked the session of a turn in progress. -/
theorem Invariant.free (h : Invariant hashtext dailyQueryCap c)
    (hturn : (c.locals i).turn = some sessionId) :
    c.shared.locks.FreeFor i (.session sessionId) := by
  cases hlock : c.shared.locks (.session sessionId) with
  | none => exact Or.inl hlock
  | some j =>
    refine Or.inr (hlock.trans (congrArg some ?_))
    obtain ⟨session, hfind, hstreaming⟩ := (h.knows i).streaming sessionId hturn
    have hturn' := (h.knows j).turn_of_row (((h.knows j).row sessionId).mp hlock) hfind hstreaming
    exact h.unique j i sessionId hturn' hturn

/-- A statement that does not wait moves its process on. -/
theorem act_eq {next : Shared ι × Phase} (hphase : c.locals i = phase)
    (hnext : program hashtext dailyQueryCap i a c.shared phase = next) :
    (Processes.act (program hashtext dailyQueryCap) (i, a) c).shared = next.1 ∧
      (Processes.act (program hashtext dailyQueryCap) (i, a) c).locals i = next.2 := by
  rw [Processes.act_self, ← hnext, ← hphase]
  exact ⟨rfl, rfl⟩

theorem remaining_ended (hphase : c.locals i = .ended sessionId) :
    (Processes.run (program hashtext dailyQueryCap) [(i, .commit)] c).shared.tables =
      c.shared.tables.endTurn sessionId :=
  congrArg Shared.tables (act_eq hphase rfl).1

theorem Invariant.remaining_ending (h : Invariant hashtext dailyQueryCap c)
    (hphase : c.locals i = .ending sessionId) :
    (Processes.run (program hashtext dailyQueryCap) [(i, .endTurn), (i, .commit)] c).shared.tables =
      c.shared.tables.endTurn sessionId := by
  have hnext : program hashtext dailyQueryCap i .endTurn c.shared (.ending sessionId) =
      (c.shared.take i (.session sessionId), .ended sessionId) :=
    if_pos (h.free (by rw [hphase]; rfl))
  obtain ⟨hshared, hended⟩ := act_eq hphase hnext
  exact (remaining_ended hended).trans (by rw [hshared]; rfl)

theorem Invariant.remaining_streaming (h : Invariant hashtext dailyQueryCap c) {turn : BegunTurn}
    (hphase : c.locals i = .streaming turn) :
    (Processes.run (program hashtext dailyQueryCap) [(i, .stop), (i, .endTurn), (i, .commit)]
      c).shared.tables = c.shared.tables.endTurn turn.sessionId := by
  have hnext : program hashtext dailyQueryCap i .stop c.shared (.streaming turn) =
      (c.shared, .ending turn.sessionId) := rfl
  obtain ⟨hshared, hending⟩ := act_eq hphase hnext
  exact ((h.act (i, .stop)).remaining_ending hending).trans (by rw [hshared])

theorem Invariant.remaining_begun (h : Invariant hashtext dailyQueryCap c) {turn : BegunTurn}
    (hphase : c.locals i = .begun turn) :
    (Processes.run (program hashtext dailyQueryCap) [(i, .start), (i, .stop), (i, .endTurn), (i, .commit)]
      c).shared.tables = c.shared.tables.endTurn turn.sessionId := by
  have hnext : program hashtext dailyQueryCap i .start c.shared (.begun turn) =
      (c.shared, .streaming turn) := rfl
  obtain ⟨hshared, hstreaming⟩ := act_eq hphase hnext
  exact ((h.act (i, .start)).remaining_streaming hstreaming).trans (by rw [hshared])

/-- **What is left of a turn ends it.** -/
theorem Invariant.remaining (h : Invariant hashtext dailyQueryCap c)
    (hturn : (c.locals i).turn = some sessionId) :
    (Processes.run (program hashtext dailyQueryCap) ((c.locals i).remaining.map (i, ·)) c).shared.tables =
      c.shared.tables.endTurn sessionId := by
  cases hphase : c.locals i with
  | begun turn =>
    rw [hphase] at hturn
    cases hturn
    exact h.remaining_begun hphase
  | streaming turn =>
    rw [hphase] at hturn
    cases hturn
    exact h.remaining_streaming hphase
  | ending id =>
    rw [hphase] at hturn
    cases hturn
    exact h.remaining_ending hphase
  | ended id =>
    rw [hphase] at hturn
    cases hturn
    exact remaining_ended hphase
  | idle | entered | locked | checked | read | won =>
    rw [hphase] at hturn
    cases hturn

theorem Invariant.goingToRelease (h : Invariant hashtext dailyQueryCap c)
    (hsession : session ∈ c.shared.tables.sessions) (hturn : (c.locals i).turn = some session.id) :
    GoingToRelease hashtext dailyQueryCap i session c := by
  refine ⟨hturn, ?_⟩
  rw [h.remaining hturn, ChatTables.find_endTurn, if_pos rfl,
    Table.find_eq_some.mpr ⟨hsession, rfl⟩]
  rfl

/-! ### Turns of streaming sessions -/

/-- A session that is streaming after a statement either has the turn of the process in progress, or
was streaming before without it. -/
theorem Step.covers (h : Step hashtext dailyQueryCap i shared a phase shared' phase')
    (hknows : Knows hashtext dailyQueryCap i shared phase) (hsurvives : Survives a phase)
    (hfind : shared'.tables.sessions.find sessionId = some session)
    (hstreaming : session.status = .streaming) :
    phase'.turn = some sessionId ∨
      (shared.tables.sessions.find sessionId = some session ∧ phase.turn ≠ some sessionId) := by
  -- the sessions are the same, and so is the turn
  have hsame : ∀ {phase : Phase}, shared.tables.sessions.find sessionId = some session →
      phase.turn = some sessionId ∨
        (shared.tables.sessions.find sessionId = some session ∧ phase.turn ≠ some sessionId) :=
    fun hfind => (em _).imp_right fun hturn => ⟨hfind, hturn⟩
  have hnone : (none : Option Uuid) ≠ some sessionId := (Option.some_ne_none sessionId).symm
  cases h with
  | stays => exact hsame hfind
  | starts => exact hsame hfind
  | stops => exact hsame hfind
  | ends => exact hsame hfind
  | yields event turn tables recorded =>
    refine hsame ?_
    rw [← (ChatTables.record_eq_some recorded).1]
    exact hfind
  | begins request now history row tables begun =>
    by_cases hid : request.sessionId = sessionId
    · exact Or.inl (congrArg some hid)
    · refine Or.inr ⟨?_, hnone⟩
      rw [← hfind]
      exact ((hknows.find_begin begun sessionId).trans (if_neg hid)).symm
  | releases id =>
    have hafter : (shared.tables.endTurn id).sessions.find sessionId = some session := hfind
    rw [ChatTables.find_endTurn] at hafter
    split_ifs at hafter with hid
    · obtain ⟨row, -, rfl⟩ := Option.map_eq_some_iff.mp hafter
      cases hstreaming
    · exact Or.inr ⟨hafter, fun hturn => hid (Option.some.inj hturn)⟩
  | abandons => exact hsurvives.elim
  | crashes => exact Or.inr ⟨hfind, by rw [hsurvives]; exact hnone⟩
  | refuses a phase e before => exact Or.inr ⟨hfind, by rw [before]; exact hnone⟩
  | enters | locks | checks | reads | wins => exact Or.inr ⟨hfind, hnone⟩

/-- Every streaming session has a turn in progress. -/
def Covered (c : Processes.Config ι (Shared ι) Phase) : Prop :=
  ∀ session ∈ c.shared.tables.sessions, session.status = .streaming →
    ∃ i, (c.locals i).turn = some session.id

theorem Covered.act (h : Covered c) (hinv : Invariant hashtext dailyQueryCap c)
    (hsurvives : Survives a (c.locals i)) :
    Covered (Processes.act (program hashtext dailyQueryCap) (i, a) c) := by
  intro session hsession hstreaming
  have hstep : Step hashtext dailyQueryCap i c.shared a (c.locals i) _ _ := act_step i a c
  rcases hstep.covers (hinv.knows i) hsurvives (Table.find_eq_some.mpr ⟨hsession, rfl⟩) hstreaming with
    hmine | ⟨hfind, hnot⟩
  · exact ⟨i, hmine⟩
  · obtain ⟨j, hturn⟩ := h session (Table.find_eq_some.mp hfind).1 hstreaming
    refine ⟨j, ?_⟩
    rw [Processes.act_of_ne]
    · exact hturn
    · rintro rfl
      exact hnot hturn

/-- A process that dies with a turn in progress, or whose client goes away before the first event,
leaves a streaming session without a turn. -/
theorem Invariant.not_covered (h : Invariant hashtext dailyQueryCap c)
    (hsurvives : ¬ Survives a (c.locals i)) :
    ¬ Covered (Processes.act (program hashtext dailyQueryCap) (i, a) c) := by
  obtain ⟨sessionId, hturn, htables, hidle⟩ : ∃ sessionId, (c.locals i).turn = some sessionId ∧
      (Processes.act (program hashtext dailyQueryCap) (i, a) c).shared.tables = c.shared.tables ∧
      (Processes.act (program hashtext dailyQueryCap) (i, a) c).locals i = .idle none := by
    unfold Survives at hsurvives
    split at hsurvives
    · obtain ⟨sessionId, hturn⟩ := Option.ne_none_iff_exists'.mp hsurvives
      have hnext : program hashtext dailyQueryCap i .crash c.shared (c.locals i) =
          (c.shared.commit i c.shared.tables, .idle none) := by
        generalize c.locals i = phase
        cases phase <;> rfl
      obtain ⟨hshared, hlocal⟩ := act_eq rfl hnext
      exact ⟨sessionId, hturn, by rw [hshared]; rfl, hlocal⟩
    · rename_i turn hphase
      have hnext : program hashtext dailyQueryCap i .disconnect c.shared (.begun turn) =
          (c.shared, .idle none) := rfl
      obtain ⟨hshared, hlocal⟩ := act_eq hphase hnext
      exact ⟨turn.sessionId, by rw [hphase]; rfl, by rw [hshared], hlocal⟩
    · exact absurd trivial hsurvives
  obtain ⟨session, hfind, hstreaming⟩ := (h.knows i).streaming sessionId hturn
  obtain ⟨hmem, rfl⟩ := Table.find_eq_some.mp hfind
  intro hcovered
  obtain ⟨j, hj⟩ := hcovered session (by rw [htables]; exact hmem) hstreaming
  by_cases hji : j = i
  · rw [hji, hidle] at hj
    cases hj
  · rw [Processes.act_of_ne _ hji] at hj
    exact hji (h.unique j i _ hj hturn)

/-! ### Released sessions -/

/-- **Every streaming session is going to be released**, in every state of a run, exactly when no
process dies with a turn in progress and no client goes away before the first event. -/
theorem released_iff (hashtext : Uuid → ℤ) (dailyQueryCap : ℤ) (tables : ChatTables)
    (hidle : ∀ session ∈ tables.sessions, session.status = .idle) (steps : List (ι × Action)) :
    (∀ before rest, steps = before ++ rest → Released hashtext dailyQueryCap
        (Processes.run (program hashtext dailyQueryCap) before (start tables))) ↔
      Processes.Along (program hashtext dailyQueryCap) (fun _ a _ phase => Survives a phase) steps
        (start tables) := by
  constructor
  · rw [Processes.along_iff]
    rintro hreleased before ⟨i, a⟩ rest rfl
    by_contra hsurvives
    have hinv : Invariant hashtext dailyQueryCap
        (Processes.run (program hashtext dailyQueryCap) before (start tables)) := .run tables before
    refine hinv.not_covered hsurvives fun session hsession hstreaming => ?_
    have hafter := hreleased (before ++ [(i, a)]) rest (List.append_cons _ _ _)
    unfold Processes.run at hafter
    rw [List.foldl_append] at hafter
    obtain ⟨j, hj⟩ := hafter session hsession hstreaming
    exact ⟨j, hj.turn⟩
  · rintro halong before rest rfl
    have hstart : Covered (start tables : Processes.Config ι (Shared ι) Phase) := by
      intro session hsession hstreaming
      rw [hidle session hsession] at hstreaming
      cases hstreaming
    obtain ⟨hinv, hcovered⟩ := Processes.run_keeps
      (I := fun c => Invariant hashtext dailyQueryCap c ∧ Covered c)
      (fun step _ hsurvives hc => ⟨hc.1.act step, hc.2.act hc.1 hsurvives⟩) halong.of_append
      ⟨.start tables, hstart⟩
    intro session hsession hstreaming
    obtain ⟨i, hturn⟩ := hcovered session hsession hstreaming
    exact ⟨i, hinv.goingToRelease hsession hturn⟩

/-- **A session without a turn is streaming for good**: no run releases it, and none begins a turn
in it. -/
theorem stays_streaming (hinv : Invariant hashtext dailyQueryCap c)
    (hfind : c.shared.tables.sessions.find sessionId = some session)
    (hstreaming : session.status = .streaming)
    (hnone : ∀ i, (c.locals i).turn ≠ some sessionId) (steps : List (ι × Action)) :
    (Processes.run (program hashtext dailyQueryCap) steps c).shared.tables.sessions.find sessionId =
        some session ∧
      ∀ i, ((Processes.run (program hashtext dailyQueryCap) steps c).locals i).turn ≠ some sessionId := by
  refine (Processes.run_keeps (I := fun c => Invariant hashtext dailyQueryCap c ∧
    c.shared.tables.sessions.find sessionId = some session ∧ ∀ i, (c.locals i).turn ≠ some sessionId)
    (fun step c _ hc => ?_) (Processes.along_true _ steps c) ⟨hinv, hfind, hnone⟩).2
  obtain ⟨i, a⟩ := step
  obtain ⟨hinv, hfind, hnone⟩ := hc
  have hstep : Step hashtext dailyQueryCap i c.shared a (c.locals i) _ _ := act_step i a c
  refine ⟨hinv.act (i, a), ?_, fun j hturn => ?_⟩
  · rw [hstep.find_eq (hinv.knows i) hfind hstreaming (hnone i), hfind]
  · by_cases hj : j = i
    · rw [hj] at hturn
      exact hnone i (hstep.turn (hinv.knows i) hfind hstreaming hturn)
    · rw [Processes.act_of_ne _ hj] at hturn
      exact hnone j hturn

end Released

/-- One session, and nothing in it. -/
def oneSession : ChatTables := ⟨⟨[⟨1, 7, .idle⟩], by decide⟩, ∅⟩

/-- A `begin_turn` in it. -/
def beginOne : List (Unit × Action) :=
  [.enter ⟨1, 7, "how much cash do I have", 10, 11, 0⟩, .lock, .check 0, .listForSession, .tryBeginTurn,
    .commit].map ((), ·)

/-- The turn is answered, and the client goes away after the first token. -/
theorem released_iff_disconnected : Released (fun _ => 0) 50 (Processes.run (program (fun _ => 0) 50)
    (beginOne ++ [((), .start), ((), .yield (.token "You have")), ((), .disconnect)])
      (start oneSession)) :=
  (released_iff (fun _ => 0) 50 oneSession (by decide) (beginOne ++ [((), .start),
    ((), .yield (.token "You have")), ((), .disconnect), ((), .endTurn), ((), .commit)])).mpr
    (by decide) _ [((), .endTurn), ((), .commit)] (by simp)

/-- **Two sessions that stay locked.** The client goes away before the first event, or the process
dies after it: the session is streaming, and no turn is in progress. -/
theorem stuck_session :
    ¬ Released (fun _ => 0) 50 (Processes.run (program (fun _ => 0) 50)
        (beginOne ++ [((), .disconnect)]) (start oneSession)) ∧
      ¬ Released (fun _ => 0) 50 (Processes.run (program (fun _ => 0) 50)
        (beginOne ++ [((), .start), ((), .yield (.token "You have")), ((), .crash)])
          (start oneSession)) := by
  have hstuck : ∀ c : Processes.Config Unit (Shared Unit) Phase,
      c.shared.tables.sessions.rows = [⟨1, 7, .streaming⟩] → c.locals () = .idle none →
        ¬ Released (fun _ => 0) 50 c := by
    intro c hrows hidle hreleased
    obtain ⟨i, hi⟩ := hreleased ⟨1, 7, .streaming⟩
      (by rw [Table.mem_iff, hrows]; exact List.mem_singleton_self _) rfl
    have hturn := hi.turn
    rw [hidle] at hturn
    cases hturn
  exact ⟨hstuck _ (by decide) (by decide),
    hstuck _ (by decide) (by decide)⟩

end Trueup.Chat
