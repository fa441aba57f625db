import Evse.Free.Power
import Evse.Ocpp.Power

/-!
# Disabling a connector

`connector_disable` clears a flag and calls the implementation, and neither implementation does anything. From then on `connector_process` no longer steps the machine that would open the relay. So a disabled connector has its relay open exactly when it was disabled with the relay open.
-/

namespace Evse

open StepRun RowTable

/-! ### The machines do not touch the flag -/

theorem Free.process_enabled (r : Readings) (c : Free.FreeConnector) : (Free.process r c).enabled = c.enabled := by
  refine (Free.machine r).step_frame (·.enabled) (fun _ _ => rfl) ?_ ?_ c
  · intro new prev c
    simp only [Free.machine, Free.onStateChange, Connector.callback]
    split_ifs <;> rfl
  · have hpower : ∀ c : Free.FreeConnector, (Free.doStopPower c).enabled = c.enabled := by
      intro c
      unfold Free.doStopPower
      split <;> rfl
    have hsupply : ∀ c : Free.FreeConnector, (Free.doSupplyPower c).enabled = c.enabled := by
      intro c
      unfold Free.doSupplyPower
      split <;> rfl
    have herror : ∀ c : Free.FreeConnector, (Free.doError c).enabled = c.enabled := hpower
    simp only [Free.machine, Free.transitions, Free.item, Row.perform, List.forall_mem_cons,
      Free.doEvseError, Free.doEvError, Free.doStopAll, Free.doStopPwm, Free.doStartPwm, Free.doUnexpected,
      Connector.stopDuty, Connector.startDuty, Connector.goFault, hpower, hsupply, herror]
    simp

/-! ### Disabled and off -/

theorem Free.disabled_off_iff (param : ConnectorParam) (evs : List Free.Event) :
    EveryState Free.step (fun c => c.enabled = false → c.isSupplyingPower = false) (Free.create param) evs ↔
      EveryStep Free.step (fun c e => e = .disable → c.isSupplyingPower = false) (Free.create param) evs := by
  refine everyState_iff_everyStep (I := fun _ => True) (fun _ _ _ => trivial) ?_ trivial (fun _ => rfl) evs
  intro c e _ hoff
  cases e with
  | process r =>
      refine iff_of_true ?_ (by simp)
      intro hdisabled
      by_cases henabled : c.enabled = true
      · simp only [Free.step, henabled, if_true, Free.process_enabled] at hdisabled
        exact absurd hdisabled (by decide)
      · simp only [Free.step, henabled] at hdisabled ⊢
        exact hoff hdisabled
  | enable r => exact iff_of_true (fun hdisabled => absurd hdisabled (by simp [Free.step, Connector.enable])) (by simp)
  | disable =>
      constructor
      · exact fun h _ => h rfl
      · exact fun h _ => h rfl

theorem Ocpp.disabled_off_iff (boot : Ocpp.Boot) (evs : List Ocpp.Event) :
    EveryState Ocpp.step (fun w => w.base.enabled = false → w.base.isSupplyingPower = false) boot.start evs ↔
      EveryStep Ocpp.step (fun w e => e = .disable → w.base.isSupplyingPower = false) boot.start evs := by
  refine everyState_iff_everyStep (I := fun _ => True) (fun _ _ _ => trivial) ?_ trivial (fun _ => rfl) evs
  intro w e _ hoff
  by_cases hown : e.ofConnector = true
  · cases e with
    | process env =>
        refine iff_of_true ?_ (by simp)
        intro hdisabled
        by_cases henabled : w.base.enabled = true
        · have hflag : (Ocpp.process env w).base.enabled = w.base.enabled :=
            congrArg Prod.fst (Ocpp.wiring_process env w)
          simp only [Ocpp.step, henabled, if_true, hflag] at hdisabled
          exact absurd hdisabled (by decide)
        · simp only [Ocpp.step, henabled] at hdisabled ⊢
          exact hoff hdisabled
    | enable env =>
        exact iff_of_true (fun hdisabled => absurd hdisabled (by simp [Ocpp.step, Connector.enable])) (by simp)
    | disable =>
        constructor
        · exact fun h _ => h rfl
        · exact fun h _ => h rfl
    | setReserved reserved => exact iff_of_true hoff (by simp)
    | _ => simp [Ocpp.Event.ofConnector] at hown
  · refine iff_of_true ?_ ?_
    · rw [Ocpp.step_base (Bool.eq_false_iff.mpr hown)]
      exact hoff
    · rintro rfl
      exact absurd rfl hown

/-- For both implementations: a connector that is not enabled has its relay open along a whole run exactly when `connector_disable` is only called with the relay open. -/
theorem disabled_off_iff_disabled_when_off (param : ConnectorParam) (freeEvs : List Free.Event) (boot : Ocpp.Boot)
    (ocppEvs : List Ocpp.Event) :
    (EveryState Free.step (fun c => c.enabled = false → c.isSupplyingPower = false) (Free.create param) freeEvs ↔
        EveryStep Free.step (fun c e => e = .disable → c.isSupplyingPower = false) (Free.create param) freeEvs) ∧
      (EveryState Ocpp.step (fun w => w.base.enabled = false → w.base.isSupplyingPower = false) boot.start ocppEvs ↔
        EveryStep Ocpp.step (fun w e => e = .disable → w.base.isSupplyingPower = false) boot.start ocppEvs) :=
  ⟨Free.disabled_off_iff param freeEvs, Ocpp.disabled_off_iff boot ocppEvs⟩

/-- A free connector disabled while it charges, and an OCPP connector disabled while it charges. -/
theorem relay_on_after_disable :
    ¬ EveryState Free.step (fun c => c.enabled = false → c.isSupplyingPower = false)
        (Free.create ⟨32000, 6000, by decide⟩) [.enable {}, .process { pilot := ⟨.a, 0⟩ },
          .process { pilot := ⟨.b, 100⟩ }, .process { pilot := ⟨.c, 53⟩ }, .disable] ∧
      ¬ EveryState Ocpp.step (fun w => w.base.enabled = false → w.base.isSupplyingPower = false)
        Ocpp.freshBoot.start (Ocpp.bootEvents ++ Ocpp.startEvents ++ Ocpp.chargeEvents ++ [.disable]) := by
  decide +kernel

end Evse
