import TheokitGateways.Slack.Adapter

/-!
# What the bot must not see

The App delivers messages from before `auth.test` has told the bot's id until
after a `disconnect` has forgotten it. A message that the handler must not see
reaches it exactly when no rule that needs no id drops it and it comes while no id
is known whose bot must not see it.
-/

namespace TheokitGateways.Slack
open Js Transition

namespace SlackAdapter

/-- No message reached a handler that the bot must not see. -/
def GatesHold (bot : JsString) (requireMention : Option Bool) (s : SlackAdapter) : Prop :=
  ∀ delivery ∈ s.delivered, ¬ Offends bot requireMention delivery.2.slack.raw

/-- A message comes when there is no handler, or it is one that the bot may see, or it is dropped:
by the rules that need no id, or for the id that is known. -/
def Told (bot : JsString) (requireMention : Option Bool) (s : SlackAdapter) : Action → Prop
  | .message _ body => s.handler = none ∨ ¬ Offends bot requireMention body ∨
    shouldSkipEvent body.event none = true ∨ ∃ id ∈ s.botUserId, Offends id requireMention body
  | _ => True

instance (bot : JsString) (requireMention : Option Bool) (s : SlackAdapter) :
    ∀ action, Decidable (Told bot requireMention s action)
  | .message .. => inferInstanceAs (Decidable (_ ∨ ¬ _ ∨ _ ∨ ∃ _ ∈ s.botUserId, _))
  | .connect _ | .disconnect | .started .. | .authTested .. | .cleaned _ | .finished _
  | .resumed _ | .stopped .. | .onInbound _ | .offInbound _ => inferInstanceAs (Decidable True)

variable {bot : JsString} {requireMention : Option Bool} {s s' : SlackAdapter} {action : Action}

theorem delivered_caught (j : Nat) (err : JsAny) : (s.caught j err).delivered = s.delivered := by
  unfold caught
  split
  · rfl
  · split <;> rfl

/-- A message breaks the gates exactly when it comes untold. -/
theorem gatesHold_handleMessage (k : Nat) (body : BoltMessageBody) :
    GatesHold bot requireMention (s.handleMessage requireMention body) ↔
      GatesHold bot requireMention s ∧ Told bot requireMention s (.message k body) := by
  unfold handleMessage
  split
  · rename_i hnone
    exact ⟨fun h => ⟨h, .inl hnone⟩, And.left⟩
  · rename_i handler hhandler
    split
    · rename_i hdropped
      have htold : Told bot requireMention s (.message k body) :=
        .inr (.inr (isDropped_iff.1 (normalizeSlackEvent_eq_none_iff.1 hdropped)))
      exact ⟨fun h => ⟨h, htold⟩, And.left⟩
    · rename_i event hevent
      have hpassed : ¬ isDropped body s.botUserId requireMention = true := by
        rw [← normalizeSlackEvent_eq_none_iff, hevent]
        exact fun h => nomatch h
      constructor
      · intro h
        refine ⟨fun delivery hmem => h delivery (List.mem_append_left _ hmem), ?_⟩
        have hevent' := h (handler, event) (List.mem_append_right _ List.mem_cons_self)
        rw [raw_normalizeSlackEvent hevent] at hevent'
        exact .inr (.inl hevent')
      · rintro ⟨h, htold⟩ delivery hmem
        obtain hmem | hmem := List.mem_append.1 hmem
        · exact h delivery hmem
        · obtain rfl := List.mem_singleton.1 hmem
          rw [raw_normalizeSlackEvent hevent]
          intro hoffends
          obtain hnone | hallowed | hdropped := htold
          · cases hhandler.symm.trans hnone
          · exact hallowed hoffends
          · exact hpassed (isDropped_iff.2 hdropped)

theorem gatesHold_of_delivered (h : s'.delivered = s.delivered) :
    GatesHold bot requireMention s' ↔ GatesHold bot requireMention s := by
  unfold GatesHold
  rw [h]

/-- A step that is no message hands none over. -/
theorem delivered_step (hstep : s.step requireMention action = some s')
    (haction : ∀ k body, action ≠ .message k body) : s'.delivered = s.delivered := by
  cases steps_of_step hstep with
  | connect made =>
    unfold connect
    split
    · rfl
    · split
      · rfl
      · dsimp only
        split
        · rfl
        · exact delivered_caught _ _
  | disconnect =>
    unfold disconnect
    split <;> rfl
  | started hj result =>
    unfold started
    split
    · dsimp only
      split
      · rfl
      · exact delivered_caught _ _
    · exact delivered_caught _ _
  | authTested hj userId =>
    unfold authTested
    split
    · rfl
    · exact delivered_caught _ _
  | cleaned | finished | resumed | onInbound => rfl
  | stopped hi result =>
    unfold stopped
    dsimp only
    split <;> rfl
  | message hk body => exact absurd rfl (haction _ body)
  | offInbound handler => split <;> rfl

theorem gatesHold_step (hstep : s.step requireMention action = some s') :
    GatesHold bot requireMention s' ↔
      GatesHold bot requireMention s ∧ Told bot requireMention s action := by
  by_cases hmessage : ∃ k body, action = .message k body
  · obtain ⟨k, body, rfl⟩ := hmessage
    obtain ⟨_, hstep⟩ := Option.ite_none_right_eq_some.1 hstep
    obtain rfl := Option.some.inj hstep
    exact gatesHold_handleMessage k body
  · have haction (k : Nat) (body : BoltMessageBody) : action ≠ .message k body :=
      fun heq => hmessage ⟨k, body, heq⟩
    have htold : Told bot requireMention s action := by
      cases action with
      | message k body => exact absurd rfl (haction k body)
      | _ => trivial
    rw [gatesHold_of_delivered (delivered_step hstep haction), and_iff_left htold]

/-- The gates hold in the runs in which every message comes told, and in no others. -/
theorem gatesHold_iff_told (bot : JsString) (requireMention : Option Bool) (as : List Action)
    (s : SlackAdapter) (hrun : run (step requireMention) {} as = some s) :
    GatesHold bot requireMention s ↔
      Meets (step requireMention) (Told bot requireMention) {} as := by
  have hempty : GatesHold bot requireMention {} := fun _ hmem => nomatch hmem
  rw [holds_iff_meets (I := fun _ => True) (fun _ _ _ _ _ => trivial)
    (fun _ _ _ _ hstep => gatesHold_step hstep) trivial hrun, and_iff_right hempty]

/-- The bot's own message in a direct channel. -/
def ownMessage : BoltMessageBody where
  event := { type := js "message", channel := js "D1", channelType := some .im,
             user := some (js "B"), text := some (js "echo"), ts := js "100.1" }

/-- The bot's own message comes once its id is known. -/
def told : List Action :=
  [.onInbound 0, .connect (.ok ()), .started 0 (.ok ()), .authTested 0 (.ok (.string (js "B"))),
    .finished 0, .message 0 ownMessage]

theorem gatesHold_iff_told_connected : ∃ s, run (step none) {} told = some s ∧
    GatesHold (js "B") none s := by
  have hsome : (run (step none) {} told).isSome = true := by decide +kernel
  obtain ⟨s, hrun⟩ := Option.isSome_iff_exists.1 hsome
  exact ⟨s, hrun, (gatesHold_iff_told (js "B") none told s hrun).2 (by decide +kernel)⟩

/-- The bot's own message comes while the App starts, before its id is known. -/
theorem own_message_reaches_handler : ¬ ∀ (bot : JsString) (requireMention : Option Bool)
    (as : List Action) (s : SlackAdapter), run (step requireMention) {} as = some s →
      s.botUserId = some bot → GatesHold bot requireMention s := by
  intro h
  have hany : (run (step none) {} [.onInbound 0, .connect (.ok ()), .message 0 ownMessage,
      .started 0 (.ok ()), .authTested 0 (.ok (.string (js "B"))), .finished 0]).any (fun s =>
        s.botUserId == some (js "B") &&
        s.delivered.any fun delivery => delivery.2.slack.raw == ownMessage) = true := by
    decide +kernel
  obtain ⟨s, hrun, hs⟩ := (Option.any_eq_true _ _).1 hany
  rw [Bool.and_eq_true, beq_iff_eq, List.any_eq_true] at hs
  obtain ⟨hbot, delivery, hmem, hraw⟩ := hs
  refine h (js "B") none _ s hrun hbot delivery hmem (.inl ?_)
  rw [beq_iff_eq.1 hraw]
  rfl

end SlackAdapter
end TheokitGateways.Slack
