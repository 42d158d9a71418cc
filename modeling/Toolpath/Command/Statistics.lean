import Toolpath.Conversion

/-!
# Statistics

The counts of a conversion as an object of names and numbers, one a line.
-/

namespace Toolpath.Command

/-- A number of the statistics. -/
def amount (x : Float) : String :=
  if x.isFinite then Layout.report.float x else "null"

/-- An entry of an object, at a depth of two spaces each. -/
def entry (depth : Nat) (name value : String) : String :=
  String.ofList (List.replicate (2 * depth) ' ') ++ "\"" ++ name ++ "\": " ++ value

/-- An object whose closing brace stands at a depth. -/
def object (depth : Nat) (entries : List String) : String :=
  "\x7b\n" ++ ",\n".intercalate entries ++ "\n" ++ String.ofList (List.replicate (2 * depth) ' ')
    ++ "\x7d"

/-- The statistics of a conversion. -/
def statistics (clip : Bool) (c : Conversion Float) : String :=
  object 0
    [entry 1 "page"
      (object 1 [entry 2 "width" (amount c.page.width), entry 2 "height" (amount c.page.height)]),
     entry 1 "clip" (if clip then "true" else "false"),
     entry 1 "parsed_polylines" (toString c.parsed.polylines),
     entry 1 "parsed_points" (toString c.parsed.points),
     entry 1 "clipped_polylines" (toString c.clipped.polylines),
     entry 1 "clipped_points" (toString c.clipped.points),
     entry 1 "emitted_polylines" (toString c.emitted.polylines),
     entry 1 "emitted_points" (toString c.emitted.points),
     entry 1 "records" (toString c.records.length)]

end Toolpath.Command
