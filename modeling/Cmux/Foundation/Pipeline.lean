import Cmux.Foundation.Machine

/-! Commands under way to a responder and acknowledgements under way back. An acknowledgement
does not say which command it answers: the requester reads it as an answer to the message it
remembers, which is the last one it sent on the channel. -/
namespace Pipeline

/-- What the requester remembers for each channel, and the two queues. A message may be no
command, and a reply goes with the command it answers. -/
structure State (κ α : Type*) where
  remembered : κ → Option α
  requests : List (κ × Option α)
  replies : List (κ × α)

inductive Action (κ α : Type*) where
  | send (channel : κ) (message : Option α)
  | handle
  | acknowledge

inductive Event (κ α : Type*) where
  | handled (channel : κ) (command : α)
  | acknowledged (channel : κ) (command : α) (remembered : Option α)

variable {κ α : Type*} [DecidableEq κ]

def pipeline : Mealy (State κ α) (Action κ α) (Option (Event κ α)) where
  step s
    | .send channel message =>
      ({ s with
          remembered := Function.update s.remembered channel message
          requests := s.requests ++ [(channel, message)] }, none)
    | .handle =>
      match s.requests with
      | [] => (s, none)
      | (_, none) :: requests => ({ s with requests := requests }, none)
      | (channel, some command) :: requests =>
        ({ s with requests := requests, replies := s.replies ++ [(channel, command)] },
          some (.handled channel command))
    | .acknowledge =>
      match s.replies with
      | [] => (s, none)
      | (channel, command) :: replies =>
        ({ s with replies := replies },
          some (.acknowledged channel command (s.remembered channel)))

section Channel
variable (k : κ)

def onChannel {β : Type*} (channel : κ) (b : β) : List β := if channel = k then [b] else []

def State.requestedOn (s : State κ α) : List α :=
  s.requests.flatMap fun r => r.2.toList.flatMap (onChannel k r.1)

def State.repliedOn (s : State κ α) : List α := s.replies.flatMap fun r => onChannel k r.1 r.2

def State.underWay (s : State κ α) : List α := s.repliedOn k ++ s.requestedOn k

def Action.sentOn : Action κ α → List α
  | send channel message => message.toList.flatMap (onChannel k channel)
  | _ => []

def Event.handledOn : Option (Event κ α) → List α
  | some (handled channel command) => onChannel k channel command
  | _ => []

/-- Commands acknowledged to the requester, each with what it remembers then. -/
def Event.answeredOn : Option (Event κ α) → List (α × Option α)
  | some (acknowledged channel command remembered) => onChannel k channel (command, remembered)
  | _ => []

def Event.arrivedOn (event : Option (Event κ α)) : List α :=
  (Event.answeredOn k event).map Prod.fst

/-- Commands that the requester takes to be acknowledged. -/
def Event.acknowledgedOn (event : Option (Event κ α)) : List α :=
  (Event.answeredOn k event).filterMap Prod.snd

/-- What is acknowledged is read as what it answers. -/
def Event.Right (event : Option (Event κ α)) : Prop :=
  ∀ p ∈ Event.answeredOn k event, p.2 = some p.1

/-- An acknowledgement is received only while the command it answers is remembered. -/
def Remembers (s : State κ α) (action : Action κ α) : Prop :=
  action = .acknowledge → ∀ command, s.replies.head? = some (k, command) →
    s.remembered k = some command

/-- What is handled was requested, in order. -/
theorem handled_conserved (s : State κ α) (action : Action κ α) :
    Event.handledOn k (pipeline.step s action).2 ++ (pipeline.step s action).1.requestedOn k =
      s.requestedOn k ++ action.sentOn k := by
  cases action with
  | send => simp [pipeline, Event.handledOn, State.requestedOn, Action.sentOn]
  | acknowledge =>
    rcases s with ⟨remembered, requests, _ | ⟨⟨channel, command⟩, replies⟩⟩ <;>
      simp [pipeline, Event.handledOn, State.requestedOn, Action.sentOn]
  | handle =>
    rcases s with ⟨remembered, _ | ⟨⟨channel, _ | command⟩, requests⟩, replies⟩ <;>
      simp [pipeline, Event.handledOn, State.requestedOn, Action.sentOn]

/-- What arrives was requested and then replied to, in order. -/
theorem arrived_conserved (s : State κ α) (action : Action κ α) :
    Event.arrivedOn k (pipeline.step s action).2 ++ (pipeline.step s action).1.underWay k =
      s.underWay k ++ action.sentOn k := by
  simp only [Event.arrivedOn, State.underWay]
  cases action with
  | send =>
    simp [pipeline, Event.answeredOn, State.repliedOn, State.requestedOn, Action.sentOn]
  | acknowledge =>
    rcases s with ⟨remembered, requests, _ | ⟨⟨channel, command⟩, replies⟩⟩
    · simp [pipeline, Event.answeredOn, State.repliedOn, State.requestedOn, Action.sentOn]
    · by_cases h : channel = k <;>
        simp [pipeline, Event.answeredOn, State.repliedOn, State.requestedOn, Action.sentOn,
          onChannel, h]
  | handle =>
    rcases s with ⟨remembered, _ | ⟨⟨channel, _ | command⟩, requests⟩, replies⟩ <;>
      simp [pipeline, Event.answeredOn, State.repliedOn, State.requestedOn, Action.sentOn]

theorem right_iff_remembers (s : State κ α) (action : Action κ α) :
    Event.Right k (pipeline.step s action).2 ↔ Remembers k s action := by
  cases action with
  | send => simp [pipeline, Event.Right, Event.answeredOn, Remembers]
  | handle =>
    rcases s with ⟨remembered, _ | ⟨⟨channel, _ | command⟩, requests⟩, replies⟩ <;>
      simp [pipeline, Event.Right, Event.answeredOn, Remembers]
  | acknowledge =>
    rcases s with ⟨remembered, requests, _ | ⟨⟨channel, command⟩, replies⟩⟩
    · simp [pipeline, Event.Right, Event.answeredOn, Remembers]
    · by_cases h : channel = k
      · subst h
        simp [pipeline, Event.Right, Event.answeredOn, Remembers, onChannel]
      · simp [pipeline, Event.Right, Event.answeredOn, Remembers, onChannel, h]

/-- A list of partial answers is complete exactly when each one is given and right. -/
theorem filterMap_snd_eq_iff {β : Type*} (l : List (β × Option β)) :
    l.filterMap Prod.snd = l.map Prod.fst ↔ ∀ p ∈ l, p.2 = some p.1 := by
  induction l with
  | nil => simp
  | cons p l ih =>
    obtain ⟨b, _ | c⟩ := p
    · -- one answer too few
      have hlen := List.length_filterMap_le Prod.snd l
      refine iff_of_false (fun h => ?_) (by simp)
      have := congrArg List.length h
      simp at this hlen
      omega
    · rw [List.filterMap_cons_some (f := Prod.snd) rfl, List.map_cons, List.cons_eq_cons, ih,
        List.forall_mem_cons, Option.some.injEq]

/-- When nothing is under way before and after a run, the requester has taken the same
commands to be acknowledged that the responder has handled exactly when every acknowledgement
came while its command was remembered. -/
theorem acknowledged_eq_handled_iff {s : State κ α} {actions : List (Action κ α)}
    (hstart : s.requests = [] ∧ s.replies = [])
    (hend : (pipeline.final s actions).requests = [] ∧ (pipeline.final s actions).replies = []) :
    (pipeline.outputs s actions).flatMap (Event.acknowledgedOn k) =
        (pipeline.outputs s actions).flatMap (Event.handledOn k) ↔
      pipeline.Throughout (Remembers k) s actions := by
  have hhandled := pipeline.flatMap_conserved (handled_conserved k) s actions
  have harrived := pipeline.flatMap_conserved (arrived_conserved k) s actions
  have hequal : (pipeline.outputs s actions).flatMap (Event.handledOn k) =
      (pipeline.outputs s actions).flatMap (Event.arrivedOn k) := by
    simp only [State.underWay, State.requestedOn, State.repliedOn, hstart, hend,
      List.flatMap_nil, List.append_nil, List.nil_append] at hhandled harrived
    rw [hhandled, harrived]
  have hanswered := filterMap_snd_eq_iff
    ((pipeline.outputs s actions).flatMap (Event.answeredOn k))
  rw [List.filterMap_flatMap, List.map_flatMap] at hanswered
  have hright : (∀ event ∈ pipeline.outputs s actions, Event.Right k event) ↔
      pipeline.Throughout (Remembers k) s actions :=
    pipeline.outputs_forall_iff (P := fun _ => True) (fun _ _ _ => trivial)
      (fun s action _ => right_iff_remembers k s action) trivial actions
  rw [hequal, ← hright]
  refine hanswered.trans ?_
  simp only [List.mem_flatMap, Event.Right]
  exact ⟨fun h event he p hp => h p ⟨event, he, hp⟩, fun h p ⟨event, he, hp⟩ => h event he p hp⟩

end Channel
end Pipeline
