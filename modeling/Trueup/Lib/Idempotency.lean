import Mathlib.Data.List.Induction
import Trueup.Lib.Scripts
import Trueup.Lib.Table

/-! # Idempotent requests

A request has a key. It looks its key up in a table of records and, if there is a record, answers
from that. Otherwise it does its work, inserts the record of its answer, and commits both. Any
number of requests run side by side, and nothing but the key of the table keeps two of them apart.

* `rows_of_made`: the records are those that were there and one for each commit.
* `created_unique`: of the requests of one key at most one commits its work.
* `find_of_created`: its record stays.
* `step_replying`: an answer from a record is one that the lookup found.
* `run_answering`: a request that begins when there is a record ends with the answer from it, and
`answers_at_once`: after two statements. -/

namespace Trueup.Lib.Idempotency

open Transaction Scripts Scripts.Script

variable {ε σ Λ β ρ κ ι : Type} {keyOf : ρ → κ}

/-- How a request answers: after its work, or from a record. -/
inductive Reply (β : Type)
  | created (b : β)
  | replayed (b : β)
  deriving DecidableEq

def Reply.isCreated : Reply β → Bool
  | .created _ => true
  | .replayed _ => false

variable {records : σ → Table keyOf}

/-- The other changes leave the records alone. -/
def OffRecords (records : σ → Table keyOf) (change : σ → σ) : Prop :=
  ∀ s, records (change s) = records s

/-- The commits of work in a history. -/
def creations (history : List (Change ι (Reply β) ε (OffRecords records))) : List (ι × β) :=
  history.filterMap fun
    | .commit i (.created b) _ => some (i, b)
    | _ => none

theorem mem_creations {history : List (Change ι (Reply β) ε (OffRecords records))} {i : ι} {b : β} :
    (i, b) ∈ creations history ↔ ∃ write, Change.commit i (.created b) write ∈ history := by
  unfold creations
  rw [List.mem_filterMap]
  constructor
  · rintro ⟨change, hmem, hchange⟩
    cases change with
    | commit j a write =>
      cases a with
      | created b' =>
        cases hchange
        exact ⟨write, hmem⟩
      | replayed b' => cases hchange
    | elsewhere => cases hchange
  · rintro ⟨write, hmem⟩
    exact ⟨_, hmem, rfl⟩

theorem mem_creations_of_step {commits : Reply β → Bool} {i : ι}
    {w w' : World ι Λ (Reply β) ε (OffRecords records)} {phase phase' : Phase ε σ Λ (Reply β)}
    (h : Step commits i w phase w' phase') {made : ι × β} (hmade : made ∈ creations w.history) :
    made ∈ creations w'.history := by
  rcases h.base with ⟨-, hhistory⟩ | ⟨change, -, hhistory, -⟩
  · exact hhistory ▸ hmade
  · unfold creations at hmade ⊢
    rw [hhistory, List.filterMap_append]
    exact List.mem_append_left _ hmade

variable [DecidableEq κ]

/-- A request over a table of records. -/
structure Request (ε Λ β : Type) (records : σ → Table keyOf) where
  key : κ
  replay : ρ → Except ε β
  work : Script ε σ Λ β
  record : β → ρ
  save : β → σ → Except ε σ
  work_leaves : Leaves records work
  record_key : ∀ b, keyOf (record b) = key
  save_inserts : ∀ b s s', save b s = .ok s' → (records s).insert (record b) = some (records s')

/-- The answer from the record of the key, if there is one. -/
def Request.lookUp (r : Request ε Λ β records) (s : σ) : Except ε (Option β) :=
  match (records s).find r.key with
  | none => .ok none
  | some record => (r.replay record).map some

/-- The statements of a request. -/
def Request.script (r : Request ε Λ β records) : Script ε σ Λ (Reply β) := do
  let answer ← query r.lookUp
  match answer with
  | some b => return .replayed b
  | none =>
    let b ← r.work
    execute (r.save b)
    return .created b

/-- What a request that commits has written: its record, and nothing else in the table. -/
def Request.Inserts (r : Request ε Λ β records) : Reply β → (σ → Except ε σ) → Prop
  | .created b, own => ∀ s s', own s = .ok s' →
      (records s).insert (r.record b) = some (records s')
  | .replayed _, _ => True

theorem ends_script (r : Request ε Λ β records) : r.script.Ends r.Inserts .ok := by
  refine ends_bind fun answer => ?_
  cases answer with
  | some b => trivial
  | none =>
    refine ends_bind ((r.work_leaves .ok (preserves_ok records)).imp fun b own hown => ?_)
    intro s s' hrun
    obtain ⟨mid, hmid, hsave⟩ := except_bind_ok.mp hrun
    rw [← hown s mid hmid]
    exact r.save_inserts b mid s' hsave

/-- **The records** are those that were there and those of the commits, in their order. -/
theorem rows_of_made {requests : ι → Request ε Λ β records} {base₀ : σ} :
    ∀ {history : List (Change ι (Reply β) ε (OffRecords records))} {base : σ},
      Made base₀ history base →
      (∀ i a write, Change.commit i a write ∈ history →
        a.isCreated ∧ (requests i).Inserts a write) →
      (records base).rows = (records base₀).rows ++
        (creations history).map fun c => (requests c.1).record c.2 := by
  intro history
  induction history using List.reverseRecOn with
  | nil =>
    intro base hmade _
    cases hmade
    simp [creations]
  | append_singleton history change ih =>
    intro base hmade hcommits
    obtain ⟨mid, hmid, happly⟩ := made_append.mp hmade
    have hrows := ih hmid fun i a write hmem => hcommits i a write (List.mem_append_left _ hmem)
    unfold creations at hrows ⊢
    rw [List.filterMap_append]
    cases change with
    | elsewhere change kind =>
      cases happly
      rw [kind mid, hrows, List.filterMap_cons_none rfl, List.filterMap_nil, List.append_nil]
    | commit i a write =>
      obtain ⟨hcreated, hinserts⟩ := hcommits i a write (by simp)
      cases a with
      | replayed b => cases hcreated
      | created b =>
        rw [Table.rows_insert (hinserts mid base happly), hrows, List.append_assoc]
        simp

/-! ### Requests that find a record -/

/-- The request has not begun, or it answers from the record, or it has crashed. -/
inductive Answering (r : Request ε Λ β records) (record : ρ) : Phase ε σ Λ (Reply β) → Prop
  | waiting : Answering r record (.running r.script .ok)
  | found (b : β) (h : r.replay record = .ok b) :
      Answering r record (.running (.done (.replayed b)) .ok)
  | replayed (b : β) (h : r.replay record = .ok b) : Answering r record (.ended (.replayed b))
  | rejected (e : ε) (h : r.replay record = .error e) : Answering r record (.raised e)
  | crashed : Answering r record .crashed

section Answering
variable {r : Request ε Λ β records} {record : ρ} {s : σ}

theorem lookUp_of_find (h : (records s).find r.key = some record) :
    r.lookUp s = (r.replay record).map some := by
  rw [Request.lookUp, h]

theorem step_answering {i : ι} {w w' : World ι Λ (Reply β) ε (OffRecords records)}
    {phase phase' : Phase ε σ Λ (Reply β)} (h : Step Reply.isCreated i w phase w' phase')
    (hfind : (records w.base).find r.key = some record) (hphase : Answering r record phase) :
    Answering r record phase' := by
  cases h with
  | stays _ _ hsame => exact hsame ▸ hphase
  | elsewhere _ _ _ _ hsame => exact hsame ▸ hphase
  | crashes _ _ _ _ _ hafter => exact hafter ▸ .crashed
  | moves script script' own own' seen hbefore hseen hnext _ _ hafter =>
    subst hbefore hafter
    cases hphase with
    | waiting =>
      cases hseen
      cases hnext with
      | reads _ _ _ answer hanswer =>
        rw [lookUp_of_find hfind, except_map_ok] at hanswer
        obtain ⟨b, hb, rfl⟩ := hanswer
        exact .found b hb
    | found b hb => cases hnext
  | fails script own e hbefore hraises _ _ hafter =>
    subst hbefore hafter
    cases hphase with
    | waiting =>
      rcases hraises with hown | ⟨seen, hseen, ⟨_, f, next, hread, he⟩ | ⟨f, next, hwrite, -⟩⟩
      · cases hown
      · cases hseen
        cases hread
        rw [lookUp_of_find hfind] at he
        cases hreplay : r.replay record with
        | error e' =>
          rw [hreplay] at he
          cases he
          exact .rejected _ hreplay
        | ok b =>
          rw [hreplay] at he
          cases he
      · cases hwrite
    | found b hb =>
      rcases hraises with hown | ⟨_, -, ⟨_, _, _, hread, -⟩ | ⟨_, _, hwrite, -⟩⟩
      · cases hown
      · cases hread
      · cases hwrite
  | rollsBack a own hbefore _ _ _ hafter =>
    subst hbefore hafter
    cases hphase with
    | found b hb => exact .replayed b hb
  | commits a own hbefore hcommits _ _ hafter =>
    subst hbefore hafter
    cases hphase with
    | found b hb => cases hcommits

end Answering

/-! ### Where an answer is from -/

/-- Where a request is: not begun, at work, or behind its end; an answer from a record is a
`source`. -/
inductive Replying (r : Request ε Λ β records) (source : β → Prop) : Phase ε σ Λ (Reply β) → Prop
  | waiting : Replying r source (.running r.script .ok)
  | working (script : Script ε σ Λ (Reply β)) (own : σ → Except ε σ)
      (h : script.Ends (fun a _ => a.isCreated) own) : Replying r source (.running script own)
  | found (b : β) (h : source b) : Replying r source (.running (.done (.replayed b)) .ok)
  | replayed (b : β) (h : source b) : Replying r source (.ended (.replayed b))
  | created (b : β) : Replying r source (.ended (.created b))
  | raised (e : ε) : Replying r source (.raised e)
  | crashed : Replying r source .crashed

section Replying
variable {r : Request ε Λ β records} {source source' : β → Prop}

theorem Replying.mono (hmono : ∀ b, source b → source' b) {phase : Phase ε σ Λ (Reply β)}
    (h : Replying r source phase) : Replying r source' phase := by
  cases h with
  | waiting => exact .waiting
  | working script own h => exact .working script own h
  | found b h => exact .found b (hmono b h)
  | replayed b h => exact .replayed b (hmono b h)
  | created b => exact .created b
  | raised e => exact .raised e
  | crashed => exact .crashed

/-- A step of a request; what its lookup finds is a source. -/
theorem step_replying {i : ι} {w w' : World ι Λ (Reply β) ε (OffRecords records)}
    {phase phase' : Phase ε σ Λ (Reply β)} (h : Step Reply.isCreated i w phase w' phase')
    (hlookUp : ∀ b, phase = .running r.script .ok → phase' = .running (.done (.replayed b)) .ok →
      r.lookUp w.base = .ok (some b) → source b)
    (hphase : Replying r source phase) : Replying r source phase' := by
  cases h with
  | stays _ _ hsame => exact hsame ▸ hphase
  | elsewhere _ _ _ _ hsame => exact hsame ▸ hphase
  | crashes _ _ _ _ _ hafter => exact hafter ▸ .crashed
  | fails _ _ e _ _ _ _ hafter => exact hafter ▸ .raised e
  | moves script script' own own' seen hbefore hseen hnext _ _ hafter =>
    subst hafter
    cases hphase with
    | waiting =>
      cases hbefore
      cases hseen
      cases hnext with
      | reads _ _ _ answer hanswer =>
        cases answer with
        | some b => exact .found b (hlookUp b rfl rfl hanswer)
        | none =>
          have hrest : (r.work >>= fun b => do
              execute (r.save b)
              return Reply.created b).Ends (fun a _ => Reply.isCreated a) .ok :=
            ends_bind ((r.work_leaves .ok (preserves_ok records)).imp fun _ _ _ => rfl)
          exact .working _ _ hrest
    | working script own hends =>
      cases hbefore
      exact .working _ _ (hnext.ends hends)
    | found b hb =>
      cases hbefore
      cases hnext
    | _ => cases hbefore
  | rollsBack a own hbefore hnot _ _ hafter =>
    subst hafter
    cases hphase with
    | waiting => cases hbefore
    | working script own hends =>
      cases hbefore
      exact absurd (show a.isCreated from hends) (by rw [hnot]; exact Bool.false_ne_true)
    | found b hb =>
      cases hbefore
      exact .replayed b hb
    | _ => cases hbefore
  | commits a own hbefore hcommits _ _ hafter =>
    subst hafter
    cases a with
    | created b => exact .created b
    | replayed b => cases hcommits

end Replying

/-! ### Runs -/

variable [DecidableEq ι] {requests : ι → Request ε Λ β records} {base₀ : σ}

/-- The requests, side by side. -/
abbrev Requests (ι Λ β ε : Type) (records : σ → Table keyOf) :=
  Processes.Config ι (World ι Λ (Reply β) ε (OffRecords records)) (Phase ε σ Λ (Reply β))

/-- What holds along every run of them. -/
abbrev RequestsOk (requests : ι → Request ε Λ β records) (base₀ : σ)
    (c : Requests ι Λ β ε records) : Prop :=
  Ok Reply.isCreated (fun i => (requests i).Inserts) base₀ c

section Ok
variable {c : Requests ι Λ β ε records} (h : RequestsOk requests base₀ c)
include h

theorem created_iff {i : ι} {b : β} :
    c.locals i = .ended (.created b) ↔ (i, b) ∈ creations c.shared.history := by
  have hvalue : ∀ a, a ∈ c.shared.history.filterMap (Change.value i) ↔
      ∃ write, Change.commit i a write ∈ c.shared.history := by
    intro a
    rw [List.mem_filterMap]
    constructor
    · rintro ⟨change, hmem, hchange⟩
      cases change with
      | commit j a' write =>
        unfold Change.value at hchange
        dsimp only at hchange
        split_ifs at hchange with hj
        cases hchange
        exact ⟨write, hj ▸ hmem⟩
      | elsewhere => cases hchange
    · rintro ⟨write, hmem⟩
      exact ⟨_, hmem, by simp [Change.value]⟩
  rw [mem_creations, ← hvalue, h.committed i]
  cases c.locals i with
  | ended a =>
    cases a with
    | created b' => simp [Phase.committed, Reply.isCreated, eq_comm]
    | replayed b' => simp [Phase.committed, Reply.isCreated]
  | running => simp [Phase.committed]
  | raised => simp [Phase.committed]
  | crashed => simp [Phase.committed]

theorem rows_of_ok : (records c.shared.base).rows = (records base₀).rows ++
    (creations c.shared.history).map fun made => (requests made.1).record made.2 :=
  rows_of_made h.made h.accepted

/-- The keys of the commits are pairwise different, and were not taken before. -/
theorem keys_of_ok : ((records base₀).rows.map keyOf ++
    (creations c.shared.history).map fun made => (requests made.1).key).Nodup := by
  have hnodup := (records c.shared.base).nodup
  rw [rows_of_ok h, List.map_append, List.map_map] at hnodup
  have hkeys : (keyOf ∘ fun made : ι × β => (requests made.1).record made.2) =
      fun made => (requests made.1).key := funext fun made => (requests made.1).record_key _
  rwa [hkeys] at hnodup

/-- **At most one commit for a key.** -/
theorem created_unique {i j : ι} {b b' : β} (hi : c.locals i = .ended (.created b))
    (hj : c.locals j = .ended (.created b')) (hkey : (requests i).key = (requests j).key) :
    i = j := by
  have hmap := (List.nodup_append.mp (keys_of_ok h)).2.1
  have heq := List.inj_on_of_nodup_map hmap ((created_iff h).mp hi) ((created_iff h).mp hj) hkey
  exact congrArg Prod.fst heq

theorem find_of_created {i : ι} {b : β} (hi : c.locals i = .ended (.created b)) :
    (records c.shared.base).find (requests i).key = some ((requests i).record b) := by
  rw [Table.find_eq_some]
  refine ⟨?_, (requests i).record_key b⟩
  rw [Table.mem_iff, rows_of_ok h]
  exact List.mem_append_right _ (List.mem_map_of_mem (f := fun made : ι × β =>
    (requests made.1).record made.2) ((created_iff h).mp hi))

end Ok

variable [DecidableEq Λ]

/-- What an action does. -/
abbrev requestProgram (records : σ → Table keyOf) :
    Processes.Program ι (Action (OffRecords records))
      (World ι Λ (Reply β) ε (OffRecords records)) (Phase ε σ Λ (Reply β)) :=
  program Reply.isCreated

/-- **After every run** of the requests. -/
theorem run_requestsOk (requests : ι → Request ε Λ β records) (base₀ : σ)
    (steps : List (ι × Action (OffRecords records))) : RequestsOk requests base₀
      (Processes.run (requestProgram records) steps (start (fun i => (requests i).script) base₀)) :=
  run_ok (fun i => ends_script (requests i)) steps

/-! ### Later requests -/

section Later
variable {r : Request ε Λ β records} {record : ρ}

theorem find_act {c : Requests ι Λ β ε records} (h : RequestsOk requests base₀ c)
    (step : ι × Action (OffRecords records)) {k : κ}
    (hfind : (records c.shared.base).find k = some record) :
    (records (Processes.act (requestProgram records) step c).shared.base).find k = some record := by
  have hstep := step_cases Reply.isCreated step.1 step.2 c.shared (c.locals step.1)
  show (records (requestProgram records step.1 step.2 c.shared (c.locals step.1)).1.base).find k = _
  rcases hstep.base with ⟨hbase, -⟩ | ⟨change, happly, -, hcommit⟩
  · rw [hbase]
    exact hfind
  · cases change with
    | elsewhere change kind =>
      rw [← Except.ok.inj happly, kind]
      exact hfind
    | commit j a write =>
      obtain ⟨rfl, hphase, hcreated⟩ := hcommit j a write rfl
      cases a with
      | replayed b => cases hcreated
      | created b =>
        have hinsert := h.running _ _ _ hphase _ _ happly
        obtain ⟨hmem, hk⟩ := Table.find_eq_some.mp hfind
        rw [Table.find_insert_of_has hinsert (hk ▸ Table.has_of_mem hmem)]
        exact hfind

/-- **A later request**, one that has not begun when there is a record of its key, answers from
it. -/
theorem run_answering {c : Requests ι Λ β ε records} (h : RequestsOk requests base₀ c) {j : ι}
    (hfind : (records c.shared.base).find (requests j).key = some record)
    (hwaiting : c.locals j = .running (requests j).script .ok)
    (steps : List (ι × Action (OffRecords records))) :
    Answering (requests j) record
      ((Processes.run (requestProgram records) steps c).locals j) := by
  have hkept := Processes.run_keeps
    (I := fun c => RequestsOk requests base₀ c ∧
      (records c.shared.base).find (requests j).key = some record ∧
      Answering (requests j) record (c.locals j))
    (fun step c _ ⟨hok, hfind, hphase⟩ => ⟨ok_act step hok, find_act hok step hfind, by
      rw [act_locals]
      split_ifs with hj
      · subst hj
        exact step_answering (step_cases _ _ _ _ _) hfind hphase
      · exact hphase⟩)
    (Processes.along_true _ steps c) ⟨h, hfind, hwaiting ▸ .waiting⟩
  exact hkept.2.2

theorem looks_up {j : ι} {w : World ι Λ (Reply β) ε (OffRecords records)}
    (hfind : (records w.base).find r.key = some record) :
    requestProgram records j .step w (.running r.script .ok) =
      match r.replay record with
      | .ok b => (w, .running (.done (.replayed b)) .ok)
      | .error e => (w.release j, .raised e) := by
  show advance Reply.isCreated j w (.read r.lookUp _) .ok = _
  unfold advance
  dsimp only
  rw [lookUp_of_find hfind]
  cases r.replay record with
  | ok b => rfl
  | error e => rfl

/-- It has its answer after two statements: nothing keeps it waiting. -/
theorem answers_at_once {c : Requests ι Λ β ε records} {j : ι}
    (hfind : (records c.shared.base).find r.key = some record)
    (hwaiting : c.locals j = .running r.script .ok) :
    (Processes.run (requestProgram records) [(j, .step), (j, .step)] c).locals j =
      match r.replay record with
      | .ok b => .ended (.replayed b)
      | .error e => .raised e := by
  have hphase : (Processes.act (requestProgram records) (j, .step) c).locals j =
      (requestProgram records j .step c.shared (.running r.script .ok)).2 := by
    rw [act_locals, if_pos rfl, hwaiting]
  show (Processes.act _ _ (Processes.act _ _ c)).locals j = _
  rw [act_locals, if_pos rfl, hphase, looks_up hfind]
  cases r.replay record with
  | ok b => rfl
  | error e => rfl

end Later

end Trueup.Lib.Idempotency
