/-
Listings of the policy query tool.

The tool prints a header such as `Types: 4901` and one item per line.

* `Listing.items` — the items of a listing;
* `Listing.portRange?` — the labelled interval that an item of the port listing declares.
-/
import TypeEnforcement.Label.Port
import TypeEnforcement.Text.Numeral

namespace TypeEnforcement.Listing

/-- The greatest count that a header may give. -/
def maxHeaderCount : Nat := 18446744073709551615

/-- Whether a line is a header: a capitalised word, a colon and a count. -/
def isHeader (line : String) : Bool :=
  match Text.cutFirst ':' line with
  | none => false
  | some (kind, count) =>
    (match kind.toList with
      | c :: _ => c.isUpper
      | [] => false) &&
    !kind.toList.any Text.isBlank &&
    (Text.readBounded maxHeaderCount (Text.trim count)).isSome

/-- The items of a listing, without blank lines and headers. -/
def items (output : String) : List String :=
  ((Text.lines output).map Text.trim).filter fun line => line ≠ "" && !isHeader line

/-- The interval of a `portcon` item: a protocol, a port or an interval of ports, and a label.
Items of protocols whose ports have no use here are skipped, as malformed ones are. -/
def portRange? (line : String) : Option PortRange := do
  match Text.words line with
  | ["portcon", protocol, range, label] =>
    let protocol ← Protocol.ofName? protocol
    let (low, high) ← match Text.cutFirst '-' range with
      | some (low, high) =>
        (Text.readBounded maxPort low).bind fun l =>
          (Text.readBounded maxPort high).map fun h => (l, h)
      | none => (Text.readBounded maxPort range).map fun p => (p, p)
    let label ← Label.parse? label
    some { low, high, protocol, label }
  | _ => none

end TypeEnforcement.Listing
