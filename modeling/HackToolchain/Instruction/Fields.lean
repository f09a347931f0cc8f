/-!
# The fields of a compute instruction

A compute instruction is written `dest=comp;jump`, where the destination and the jump may be left
out. The fields remember the columns at which the computation and the jump were written.
-/

namespace HackToolchain

/-- The texts of the three fields, and the columns of the computation and of the jump. The column of
a jump that is left out is zero. -/
structure Fields where
  dest : Option String
  comp : String
  jump : Option String
  compColumn : Int
  jumpColumn : Int
  deriving DecidableEq

/-- The written form of the fields. -/
def Fields.text (f : Fields) : String :=
  let assigned :=
    match f.dest with
    | some dest => dest ++ "=" ++ f.comp
    | none => f.comp
  match f.jump with
  | some jump => assigned ++ ";" ++ jump
  | none => assigned

end HackToolchain
