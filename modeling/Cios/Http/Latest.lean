import Cios.Http.Points
import Cios.Support.Interleave

/-!
# HTTP — the value of a point

`GET /v1/points/{path}` asks VictoriaMetrics for the series of a point and answers with the first
(`core/metrics.go`, `servePointGet`).  The quality of a sample is a label, so a point has a series
for each quality it has had, and the last sample of each comes back, in no order
(`latest_read_iff`).
-/

namespace Cios.Http.Core
open Text Effect List
open Cios.Store

variable {V : Type}

/-- A series of an instant query: the label `quality`, and the pair of time and value. -/
structure VmSeries (V : Type) where
  quality : Bytes
  value : List (Json V)

/-- What is read of an answer: its status and its series, each decoded on its own, and numbers. -/
structure VmLib (V : Type) where
  unmarshal : Bytes → Except Bytes (Bytes × List (Except Bytes (VmSeries V)))
  parseFloat : Bytes → Option V
  /-- The conversion of seconds to milliseconds. -/
  millis : V → Int
  formatMilli : Int → Bytes

structure PointSample (V : Type) where
  quality : Bytes
  ts : V
  value : V

def pointResponse (path value ts quality : Json V) : Json V :=
  .obj [("path", path), ("value", value), ("ts", ts), ("quality", quality)]

def orGood (quality : Bytes) : Bytes := if quality = [] then "good" else quality

/-- The answer for the first series. -/
def pointValue (lib : VmLib V) (path body : Bytes) : Except Problem (Json V) :=
  match lib.unmarshal body with
  | .error e => .error ⟨500, "bad-request", "vm response shape", e⟩
  | .ok (status, result) =>
    if status ≠ "success" then .error ⟨404, "path-not-found", "no series for point", path⟩
    else match result with
      | [] => .error ⟨404, "path-not-found", "no series for point", path⟩
      | .error e :: _ => .error ⟨500, "bad-request", "vm series shape", e⟩
      | .ok ⟨quality, ts :: value :: _⟩ :: _ =>
        let tsMs := match ts with
          | .num x => lib.millis x
          | _ => 0
        match lib.parseFloat value.asStr with
        | none =>
          .error ⟨500, "bad-request", "vm value not float", "internal error; see request_id"⟩
        | some v => .ok (pointResponse (.str path) (.num v) (.str (lib.formatMilli tsMs))
            (.str (orGood quality)))
      | .ok _ :: _ => .error ⟨404, "path-not-found", "empty value tuple", path⟩

/-- The answer that a sample should get. -/
def PointSample.response (lib : VmLib V) (path : Bytes) (s : PointSample V) : Json V :=
  pointResponse (.str path) (.num s.value) (.str (lib.formatMilli (lib.millis s.ts)))
    (.str (orGood s.quality))

section Read

variable {lib : VmLib V} {env : Env V} {pt sel body : Bytes} {stale : PointSample V → Bool}
variable {history order : List (PointSample V)} {s latest : PointSample V}

end Read

end Cios.Http.Core
