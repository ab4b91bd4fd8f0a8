import Unnest.Cluster.Request

/-!
# The replies of several nodes

Nodes are asked at once, and their replies are kept at their places (`Collects`).  What replies come
to depends on the calls that broke down: without any, it is all answers or the first refusal; one
such call is an error of its own; and more of them break down whoever waits (`Reply.gather_cases`).
-/

namespace Unnest

/-! ## Replies at their places -/

section Replies

variable {α : Type} {holds other : NodeId → Reply α → Prop} {nodes : List NodeId}
  {replies : List (Option (Reply α))}

/-- The replies of nodes so far, each at the place of its node. -/
structure Collects (holds : NodeId → Reply α → Prop) (nodes : List NodeId)
    (replies : List (Option (Reply α))) : Prop where
  places : replies.length = nodes.length
  fits : ∀ (place : Nat) (id : NodeId) (reply : Reply α), nodes[place]? = some id →
    replies[place]? = some (some reply) → holds id reply

theorem collects_none (holds : NodeId → Reply α → Prop) (nodes : List NodeId) :
    Collects holds nodes (nodes.map fun _ => none) where
  places := List.length_map _
  fits := by
    intro place id reply isNode isReply
    rw [List.getElem?_map, isNode] at isReply
    cases isReply

theorem Collects.imp (collects : Collects holds nodes replies)
    (implies : ∀ id ∈ nodes, ∀ reply, holds id reply → other id reply) :
    Collects other nodes replies where
  places := collects.places
  fits := fun place id reply isNode isReply =>
    implies id (List.mem_of_getElem? isNode) reply (collects.fits place id reply isNode isReply)

theorem Collects.set (collects : Collects holds nodes replies) {place : Nat} {id : NodeId}
    (isNode : nodes[place]? = some id) {reply : Reply α} (isReply : holds id reply) :
    Collects holds nodes (replies.set place (some reply)) where
  places := (List.length_set ..).trans collects.places
  fits := by
    intro otherPlace otherId otherReply isOther isOtherReply
    by_cases same : place = otherPlace
    · subst same
      have within : place < replies.length := by
        rw [collects.places]
        exact (List.getElem?_eq_some_iff.mp isNode).1
      rw [List.getElem?_set_self within] at isOtherReply
      rw [isNode] at isOther
      cases isOther
      cases isOtherReply
      exact isReply
    · rw [List.getElem?_set_ne same] at isOtherReply
      exact collects.fits otherPlace otherId otherReply isOther isOtherReply

/-- When all nodes have replied, there is a reply of each node and a node for each reply. -/
theorem Collects.complete (collects : Collects holds nodes replies) {all : List (Reply α)}
    (haveReplied : replies = all.map some) :
    (∀ reply ∈ all, ∃ id ∈ nodes, holds id reply) ∧
      ∀ id ∈ nodes, ∃ reply ∈ all, holds id reply := by
  have places : all.length = nodes.length := by
    rw [← collects.places, haveReplied, List.length_map]
  have fits : ∀ (place : Nat) (within : place < all.length) (isNode : place < nodes.length),
      holds nodes[place] all[place] := by
    intro place within isNode
    refine collects.fits place _ _ (List.getElem?_eq_getElem isNode) ?_
    rw [haveReplied, List.getElem?_map, List.getElem?_eq_getElem within]
    rfl
  constructor
  · intro reply isReply
    rcases List.mem_iff_getElem.mp isReply with ⟨place, within, rfl⟩
    have isNode : place < nodes.length := places ▸ within
    exact ⟨nodes[place], List.getElem_mem isNode, fits place within isNode⟩
  · intro id isServing
    rcases List.mem_iff_getElem.mp isServing with ⟨place, isNode, rfl⟩
    have within : place < all.length := places.symm ▸ isNode
    exact ⟨all[place], List.getElem_mem within, fits place within isNode⟩

end Replies

/-! ## Replies that are gathered -/

namespace Reply

variable {α : Type} {code : String} {replies : List (Reply α)}

theorem countP_isCrash_answered (outcomes : List (Outcome α)) :
    (outcomes.map answered).countP isCrash = 0 := by
  apply List.countP_eq_zero.mpr
  intro reply isReply
  rcases List.mem_map.mp isReply with ⟨outcome, _, isAnswer⟩
  rw [← isAnswer]
  exact Bool.false_ne_true

/-- The calls are waited for up to the first one that broke down. -/
theorem joinAll_cases (code : String) (replies : List (Reply α)) :
    (∃ outcomes : List (Outcome α),
        replies = outcomes.map answered ∧ joinAll code replies = (.ok outcomes, [])) ∨
      ∃ (outcomes : List (Outcome α)) (left : List (Reply α)),
        replies = outcomes.map answered ++ .crashed :: left ∧
        joinAll code replies =
          (.error (.brokenInvariant code "cluster request thread panicked" ""), left) := by
  induction replies with
  | nil => exact Or.inl ⟨[], rfl, rfl⟩
  | cons first rest inductionHypothesis =>
      cases first with
      | crashed => exact Or.inr ⟨[], rest, rfl, rfl⟩
      | answered outcome =>
          rcases inductionHypothesis with
            ⟨outcomes, areAnswered, isJoined⟩ | ⟨outcomes, left, areReplies, isJoined⟩
          · refine Or.inl ⟨outcome :: outcomes, ?_, ?_⟩
            · rw [areAnswered, List.map_cons]
            · rw [joinAll, isJoined]
              rfl
          · refine Or.inr ⟨outcome :: outcomes, left, ?_, ?_⟩
            · rw [areReplies, List.map_cons, List.cons_append]
            · rw [joinAll, isJoined]
              rfl

/-- What replies come to, by the number of calls that broke down. -/
theorem gather_cases (code : String) (replies : List (Reply α)) :
    (∃ outcomes : List (Outcome α), replies = outcomes.map answered ∧
        gather code replies = .answered (outcomes.mapM id)) ∨
      (replies.countP isCrash = 1 ∧
        gather code replies =
          .answered (.error (.brokenInvariant code "cluster request thread panicked" ""))) ∨
      2 ≤ replies.countP isCrash ∧ gather code replies = .crashed := by
  rcases joinAll_cases code replies with
    ⟨outcomes, areAnswered, isJoined⟩ | ⟨outcomes, left, areReplies, isJoined⟩
  · refine Or.inl ⟨outcomes, areAnswered, ?_⟩
    rw [gather, isJoined]
    rfl
  · have crashes : replies.countP isCrash = left.countP isCrash + 1 := by
      rw [areReplies, List.countP_append, countP_isCrash_answered, Nat.zero_add]
      exact List.countP_cons_of_pos rfl
    cases hasCrash : left.any isCrash with
    | false =>
        have noCrash : left.countP isCrash = 0 := by
          simpa [List.countP_eq_zero] using hasCrash
        refine Or.inr (Or.inl ⟨by rw [crashes, noCrash], ?_⟩)
        simp only [gather, isJoined, hasCrash, Bool.false_eq_true, if_false]
        rfl
    | true =>
        have someCrash : 0 < left.countP isCrash := by
          simpa [List.countP_pos_iff] using hasCrash
        refine Or.inr (Or.inr ⟨by omega, ?_⟩)
        simp only [gather, isJoined, hasCrash, if_true]

/-- Two calls that broke down, and nothing less, break down whoever waits for them. -/
theorem gather_eq_crashed_iff :
    gather code replies = .crashed ↔ 2 ≤ replies.countP isCrash := by
  rcases gather_cases code replies with
    ⟨outcomes, areAnswered, isGathered⟩ | ⟨once, isGathered⟩ | ⟨twice, isGathered⟩
  · rw [isGathered, areAnswered, countP_isCrash_answered]
    simp
  · rw [isGathered, once]
    simp
  · simp [isGathered, twice]

/-- Answers are all there, or one of them is the first refusal. -/
theorem mapM_outcome (outcomes : List (Outcome α)) :
    (∃ values, outcomes = values.map .ok ∧ outcomes.mapM id = .ok values) ∨
      ∃ cause, .error cause ∈ outcomes ∧ outcomes.mapM id = .error cause := by
  induction outcomes with
  | nil => exact Or.inl ⟨[], rfl, rfl⟩
  | cons first rest inductionHypothesis =>
      rw [List.mapM_cons]
      cases first with
      | error cause => exact Or.inr ⟨cause, List.mem_cons_self, rfl⟩
      | ok value =>
          rcases inductionHypothesis with ⟨values, areOk, isMapped⟩ | ⟨cause, isCause, isMapped⟩
          · rw [isMapped]
            exact Or.inl ⟨value :: values, by rw [areOk, List.map_cons], rfl⟩
          · rw [isMapped]
            exact Or.inr ⟨cause, List.mem_cons_of_mem _ isCause, rfl⟩

/-- All nodes have answered if there is a result. -/
theorem of_gather_ok {values : List α} (gathered : gather code replies = .answered (.ok values)) :
    replies = values.map fun value => .answered (.ok value) := by
  rcases gather_cases code replies with
    ⟨outcomes, areAnswered, isGathered⟩ | ⟨_, isGathered⟩ | ⟨_, isGathered⟩
  · rw [gathered] at isGathered
    rcases mapM_outcome outcomes with ⟨found, areOk, isMapped⟩ | ⟨cause, _, isMapped⟩
    · rw [isMapped] at isGathered
      cases isGathered
      rw [areAnswered, areOk, List.map_map]
      rfl
    · rw [isMapped] at isGathered
      cases isGathered
  · cases gathered.symm.trans isGathered
  · cases gathered.symm.trans isGathered

/-- An error is the refusal of a node, or it tells that a call broke down. -/
theorem of_gather_error {cause : Error}
    (gathered : gather code replies = .answered (.error cause)) :
    .answered (.error cause) ∈ replies ∨
      cause = .brokenInvariant code "cluster request thread panicked" "" := by
  rcases gather_cases code replies with
    ⟨outcomes, areAnswered, isGathered⟩ | ⟨_, isGathered⟩ | ⟨_, isGathered⟩
  · rw [gathered] at isGathered
    rcases mapM_outcome outcomes with ⟨found, _, isMapped⟩ | ⟨found, isCause, isMapped⟩
    · rw [isMapped] at isGathered
      cases isGathered
    · rw [isMapped] at isGathered
      cases isGathered
      rw [areAnswered]
      exact Or.inl (List.mem_map_of_mem isCause)
  · cases gathered.symm.trans isGathered
    exact Or.inr rfl
  · cases gathered.symm.trans isGathered

/-- If no call broke down, there are all answers, or there is the cause of a refusal. -/
theorem gather_outcome (code : String)
    (haveAnswered : ∀ reply ∈ replies, ∃ outcome, reply = answered outcome) :
    (∃ values, gather code replies = .answered (.ok values) ∧
        replies = values.map fun value => .answered (.ok value)) ∨
      ∃ cause, gather code replies = .answered (.error cause) ∧
        .answered (.error cause) ∈ replies := by
  rcases gather_cases code replies with ⟨outcomes, areAnswered, isGathered⟩ | crashes
  · rcases mapM_outcome outcomes with ⟨values, _, isMapped⟩ | ⟨cause, isCause, isMapped⟩
    · rw [isMapped] at isGathered
      exact Or.inl ⟨values, isGathered, of_gather_ok isGathered⟩
    · rw [isMapped] at isGathered
      refine Or.inr ⟨cause, isGathered, ?_⟩
      rw [areAnswered]
      exact List.mem_map_of_mem isCause
  · have noCrash : replies.countP isCrash = 0 := by
      apply List.countP_eq_zero.mpr
      intro reply isReply
      rcases haveAnswered reply isReply with ⟨outcome, isAnswer⟩
      rw [isAnswer]
      exact Bool.false_ne_true
    omega

end Reply

end Unnest
