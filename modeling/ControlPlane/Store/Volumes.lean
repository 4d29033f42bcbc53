import ControlPlane.Failure
import ControlPlane.Store.Basic

/-! Recording that volumes have moved. All moves of a list are recorded, or none is. -/

namespace ControlPlane.Store

/-- Records one move. -/
def moveVolume (s : Store) (move : VolumeMove) : Except Failure Store :=
  match s.pool? move.pool with
  | none => .error (.notFound (.pool move.pool))
  | some pool =>
    match s.volume? move.volume with
    | none => .error (.notFound (.volume move.volume))
    | some volume =>
      .ok { s with volumes := s.volumes.insert (volume.moveTo pool move.path) }

/-- Records moves one after the other, until one fails. -/
def moveEach (s : Store) : List VolumeMove → Except Failure Store
  | [] => .ok s
  | move :: moves => (s.moveVolume move).bind fun s => s.moveEach moves

def moveVolumes (s : Store) (moves : List VolumeMove) : Except Failure Unit × Store :=
  match s.moveEach moves with
  | .ok moved => (.ok (), moved)
  | .error failure => (.error failure, s)

end ControlPlane.Store
