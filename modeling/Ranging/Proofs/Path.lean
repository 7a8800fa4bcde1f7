import Ranging.Proofs.SimulationRun
import Ranging.Random.Draw

/-!
# The path of the tag

The velocity of the tag at the start is drawn from a source of its own. From there on the scene is
moved by each slot to the slot's time, which is the number of the slot times the slot period. So the
scenes of a run (`World.scenes`) are those of `Scene.path`, in which there is neither a radio nor a
receiver, and simulations whose setups agree on the installation and the tag (`Setup.SamePath`) go
through the same scenes.
-/

namespace Ranging

/-- The scenes after each of the next `n` slots, of which the first is number `slot`. -/
def Scene.path {K : Type} [Scalar K] (period : K) (scene : Scene K) (slot : Nat) :
    Nat → List (Scene K)
  | 0 => []
  | n + 1 =>
    let next := scene.advance (Scalar.ofNat slot * period - scene.time)
    next :: next.path period (slot + 1) n

/-- The setups agree on where the anchors are, how fast the tag is, and when the slots are. -/
structure Setup.SamePath {K : Type} (s s' : Setup K) : Prop where
  seed : s'.seed = s.seed
  anchorCount : s'.anchorCount = s.anchorCount
  radius : s'.radius = s.radius
  height : s'.height = s.height
  tagSpeed : s'.tagSpeed = s.tagSpeed
  slotPeriod : s'.slotPeriod = s.slotPeriod

namespace World

variable {σ K : Type} [Analytic K] [NoiseSource σ K]

/-- The scenes after each slot of a run. -/
def scenes (w : World σ K) : List Action → List (Scene K)
  | [] => []
  | .step :: actions => w.step.2.scene :: w.step.2.scenes actions
  | .replaceAnchors :: actions => w.replaceAnchors.scenes actions

/-- Whatever is drawn, lost or measured, the scenes follow from the first one and from the slots. -/
theorem scenes_eq_path {w : World σ K} (h : w.stations ≠ []) (actions : List Action) :
    w.scenes actions = w.scene.path w.setup.slotPeriod w.slot (actions.count .step) := by
  induction actions generalizing w with
  | nil => rfl
  | cons action actions ih =>
      cases action with
      | replaceAnchors =>
          rw [List.count_cons_of_ne (by decide)]
          exact ih (perform_stations_ne_nil h .replaceAnchors)
      | step =>
          have hnext : w.step.2.stations ≠ [] := perform_stations_ne_nil h .step
          rw [scenes, ih hnext, step_scene, step_setup, step_slot h, List.count_cons_self]
          rfl

/-- The first scene is drawn from these fields alone. -/
theorem startScene_of_samePath {s s' : Setup K} (h : s.SamePath s') :
    startScene σ s' = startScene σ s := by
  rw [startScene, h.anchorCount, h.radius, h.height, h.tagSpeed, h.seed]
  rfl

theorem scenes_of_create {s : Setup K} {w : World σ K} (h : create s = .ok w)
    (actions : List Action) :
    w.scenes actions = (startScene σ s).path s.slotPeriod 0 (actions.count .step) := by
  rw [scenes_eq_path (Running.of_create h).stations_ne_nil]
  obtain ⟨-, -, -, rfl⟩ := create_eq_ok_iff.1 h
  rfl

/-- Two simulations that agree on the installation and the tag go through the same scenes, with the
tag at the same place, with the same velocity and at the same time after every slot. Their radios,
clocks and receivers may differ, as may what is lost and when anchors are replaced. -/
theorem scenes_of_samePath {s s' : Setup K} (hpath : s.SamePath s') {w w' : World σ K}
    (hcreate : create s = .ok w) (hcreate' : create s' = .ok w') {actions actions' : List Action}
    (hsteps : actions'.count .step = actions.count .step) :
    w'.scenes actions' = w.scenes actions := by
  rw [scenes_of_create hcreate, scenes_of_create hcreate', hsteps, hpath.slotPeriod,
    startScene_of_samePath hpath]

/-- The standard installation with bad clocks, and with a radio that loses most packets. -/
def roughSetup : Setup Float :=
  { Setup.standard with
    packetLoss := 0.9
    jitter := 20.0
    clockDrift := 5.0
    positionPeriod := 1.0
    firstId := 200
    wrapAfter := some 1.0
    settings := .longRange }

/-- Over three slots, with anchors replaced in one of the two runs. -/
theorem scenes_of_samePath_roughSetup :
    (Setup.standard : Setup Float).SamePath roughSetup ∧
    ∃ w w' : World ChaCha Float, create Setup.standard = .ok w ∧ create roughSetup = .ok w' ∧
      ([.step, .replaceAnchors, .step, .replaceAnchors, .step] : List Action).count .step =
        ([.step, .step, .step] : List Action).count .step ∧
      w'.scenes [.step, .replaceAnchors, .step, .replaceAnchors, .step] =
        w.scenes [.step, .step, .step] := by
  have hpath : (Setup.standard : Setup Float).SamePath roughSetup := ⟨rfl, rfl, rfl, rfl, rfl, rfl⟩
  have hcreate : create Setup.standard = .ok (fresh Setup.standard : World ChaCha Float) :=
    create_eq_ok_iff.2 ⟨Setup.validate_eq_ok_iff.1 rfl, rfl, Settings.validate_eq_ok_iff.1 rfl, rfl⟩
  have hcreate' : create roughSetup = .ok (fresh roughSetup : World ChaCha Float) :=
    create_eq_ok_iff.2 ⟨Setup.validate_eq_ok_iff.1 rfl, rfl, Settings.validate_eq_ok_iff.1 rfl, rfl⟩
  have hsteps : ([.step, .replaceAnchors, .step, .replaceAnchors, .step] : List Action).count .step =
      ([.step, .step, .step] : List Action).count .step := by decide
  exact ⟨hpath, _, _, hcreate, hcreate', hsteps,
    scenes_of_samePath hpath hcreate hcreate' hsteps⟩

end World

end Ranging
