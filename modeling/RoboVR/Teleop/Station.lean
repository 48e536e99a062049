import RoboVR.Teleop.HeadFrame
import RoboVR.Teleop.Tracking

/- The station: samples of the head and of the hand come in, the camera is updated with the head,
   and actions are made in the frame that both share. Every run of it is a session of the arm. -/
namespace QuestStation
open QuestArmMotion QuestHeadFrame TracedRun

section Station
variable {R : Type} [Zero R] [One R] [Add R] [Sub R] [Neg R] [Mul R] [Div R]
  [LE R] [LT R] [DecidableLE R] [DecidableLT R] [Numeric R]

structure Station (R : Type) where
  latestHeadPose : Option (HeadPose R)
  latestInput : Option (Sample R)
  head : HeadTracking R
  armTeleop : ArmTeleop R

def newStation : Station R :=
  { latestHeadPose := none, latestInput := none, head := newTracking, armTeleop := newTeleop }

/-- One of the reader's updates, or one of the two parts of the simulation loop. -/
inductive Tick (R : Type) where
  | headPose (pose : HeadPose R)
  | input (sample : Sample R)
  | updateHeadTrackedCamera
  | makeAction (actionDim : Nat)

def tick (args : Args R) (s : Station R) : Tick R → Station R × List (Acted R)
  | .headPose pose => ({ s with latestHeadPose := some pose }, [])
  | .input sample => ({ s with latestInput := some sample }, [])
  | .updateHeadTrackedCamera =>
    ({ s with head := updateHeadTrackedCamera s.head s.latestHeadPose }, [])
  | .makeAction actionDim =>
    let frame := s.head.neutralFrame
    let made := makeAction args frame s.latestInput s.armTeleop actionDim
    ({ s with armTeleop := made.1 },
      if actionDim < 7 then []
      else s.latestInput.toList.map fun sample =>
        { sample := sample, axes := frame, out := made.2 })

/-- What the arm sees of the station. -/
def Station.session (s : Station R) : Session R :=
  { latest := s.latestInput, axes := s.head.neutralFrame, teleop := s.armTeleop }

end Station

end QuestStation
