import Marble.Error
import Marble.Json.Domain
import Marble.Options

/-! Settings: three widths and a log level, and their JSON form. -/
namespace Marble

/-- Settings as configured; the widths have not been checked. -/
structure Settings where
  unit : Nat := 10
  grid : Nat := 10
  padding : VirtualTime := .clamp 1000
  level : String := "warn"
deriving DecidableEq

namespace Settings

/-- The widths as a scope takes them; the first width that is zero is refused. -/
def scopeOptions (s : Settings) : Except Error ScopeOptions :=
  match UnitOfTime.ofNat? s.unit, TimeGrid.ofNat? s.grid with
  | .error reason, _ => .error (.invalidSetting "scheduler.unit_of_time_ticks" reason)
  | .ok _, .error reason => .error (.invalidSetting "scheduler.time_grid_ticks" reason)
  | .ok unit, .ok grid => .ok ⟨unit, grid, s.padding⟩

def toJson (s : Settings) : Json :=
  .object [
    ("scheduler", .object [("unit_of_time_ticks", .int s.unit), ("time_grid_ticks", .int s.grid),
      ("expectation_padding_ticks", .int s.padding.ticks)]),
    ("logging", .object [("level", .string s.level)])]

end Settings

instance : Encode Settings := ⟨fun s => .ok s.toJson⟩

instance : Decode Settings where
  decode j := do
    match ← j.record? ["scheduler", "logging"] with
    | [scheduler, logging] =>
      match ← scheduler.record?
          ["unit_of_time_ticks", "time_grid_ticks", "expectation_padding_ticks"],
        ← logging.record? ["level"] with
      | [unit, grid, padding], [level] =>
        return ⟨← unit.ticks?, ← grid.ticks?, ← decode padding, ← decode level⟩
      | _, _ => none
    | _ => none

end Marble
