import Cios.Path.Cpath
import Cios.Support.Table
import Cios.Support.Utf8

/-!
# Path — the projection to Prometheus

A point and its value as a line of the Prometheus text format, and back (`pkg/promproj`).  A metric
is named by the quantity and its unit; the asset and the location of the point are labels, and make
the name of the point relative to its asset when they are read back (`relPoint`).

Every point that the dictionary accepts has a line (`render_parsed`).
-/

namespace Cios.Promproj
open Text
open Cios.Cpath

section Project

variable (d : Dict)

def lookupQuantity (name : Bytes) : Option QuantityDef :=
  d.quantities.lookup name <|> d.derived.lookup name

/-- The metric of a quantity; none for a quantity that is not in the dictionary. -/
def metricName (quantity : Bytes) : Option Bytes :=
  (lookupQuantity d quantity).map fun q =>
    if q.unit = lit "enum" then lit "cios_" ++ quantity
    else lit "cios_" ++ quantity ++ lit "_" ++ q.unit

/-- The first domain by name that has the type; the empty string for none. -/
def reverseDomain (topType : Bytes) : Bytes :=
  let keys := d.domains.keys.insertionSort fun a b => le a b = true
  (keys.find? fun k => ((d.domains.lookup k).getD []).contains topType).getD []

def buildLabels (p : Point) (quality : Bytes) : List (Bytes × Bytes) :=
  [(lit "site", p.asset.site)] ++ (p.asset.nodes.map fun n => (n.type, n.text)) ++
  [(lit "path", p.asset.text)] ++
  (if p.loop = [] then [] else [(lit "loop", p.loopText)]) ++
  (if p.side = [] then [] else [(lit "side", p.side)]) ++
  (if p.phase = [] then [] else [(lit "phase", p.phase)]) ++
  (match p.asset.nodes with
    | [] => []
    | top :: rest =>
      (lit "asset_type", ((top :: rest).getLast (List.cons_ne_nil top rest)).type) ::
        (if reverseDomain d top.type = [] then []
        else [(lit "domain", reverseDomain d top.type)])) ++
  (if quality = [] then [] else [(lit "quality", quality)])

def isEscaped (c : UInt8) : Bool := c == '\\' || c == '"' || c == '\n'

/-- A value with a byte to escape is written rune by rune, which also replaces what is not
UTF-8. -/
def escapeLabel (s : Bytes) : Bytes :=
  if s.any isEscaped then
    (Utf8.coerce s).flatMap fun (c : UInt8) =>
      if c = '\\' then lit "\\\\" else if c = '"' then lit "\\\"" else
        if c = '\n' then lit "\\n" else [c]
  else s

def labelText (l : Bytes × Bytes) : Bytes := l.1 ++ lit "=\"" ++ escapeLabel l.2 ++ lit "\""

/-- The line of a point at `ts` milliseconds; `value` is the printed value. -/
def render (p : Point) (value : Bytes) (ts : Int) (quality : Bytes) : Option Bytes :=
  if p.quantity = [] then none
  else (metricName d p.quantity).map fun name =>
    name ++ lit "\x7b" ++ (lit ",").intercalate ((buildLabels d p quality).map labelText) ++
      lit "\x7d " ++ value ++ lit " " ++ lit (toString ts)

/-- The first quantity of a section whose metric, with its unit, is the given one. -/
def scanUnits (m : Section QuantityDef) (metric : Bytes) : Option Bytes :=
  (m.entries.find? fun e =>
    !(e.2.unit = [] || e.2.unit = lit "enum") &&
      lit "cios_" ++ e.1 ++ lit "_" ++ e.2.unit == metric).map (·.1)

/-- The empty name is no answer: `scan` returns it when it has found nothing. -/
def found (q : Option Bytes) : Option Bytes := q.filter (· ≠ [])

def quantityFromMetric (metric : Bytes) : Option Bytes :=
  match cutPrefix "cios_" metric with
  | none => none
  | some body =>
    if ((d.quantities.lookup body).map (·.unit)) = some (lit "enum") then some body
    else if ((d.derived.lookup body).map (·.unit)) = some (lit "enum") then some body
    else found (scanUnits d.quantities metric) <|> found (scanUnits d.derived metric)

/-- The labels of a series; one that it does not have reads as the empty string. -/
abbrev Labels := Bytes → Bytes

/-- The name of a series relative to its asset. -/
def relPoint (labels : Labels) : Option Bytes :=
  if labels "__name__" = [] then none
  else (quantityFromMetric d (labels "__name__")).map fun quantity =>
    (lit ".").intercalate
      (([labels "loop", labels "side", labels "phase"].filter (· ≠ [])) ++ [quantity])

end Project

variable {d : Dict}

theorem render_parsed {s : Bytes} {p : Point} (h : parsePoint d s = .ok p) (value : Bytes)
    (ts : Int) (quality : Bytes) : ∃ line, render d p value ts quality = some line := by
  obtain ⟨hq, hknown⟩ := parsePoint_quantity h
  have hname : ∃ name, metricName d p.quantity = some name := by
    rw [metricName, lookupQuantity]
    cases hl : d.quantities.lookup p.quantity with
    | some q => exact ⟨_, rfl⟩
    | none =>
      rw [hl] at hknown
      obtain ⟨q, hd⟩ := Option.isSome_iff_exists.mp (hknown.resolve_left (by simp))
      rw [hd]
      exact ⟨_, rfl⟩
  obtain ⟨name, hname⟩ := hname
  rw [render, if_neg hq, hname]
  exact ⟨_, rfl⟩

end Cios.Promproj
