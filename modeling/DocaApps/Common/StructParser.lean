import DocaApps.Doca
import DocaApps.Lib.CStrings

namespace DocaApps.Common.StructParser
open Lib.CStrings

variable {σ : Type}

def maxCmdlineInputLen : Nat := 512
def maxFieldInputLen : Nat := 128

/-- The callback that fills one field of a structure. -/
abbrev FillStruct (σ : Type) := List Char → List Char → σ → Except DocaError Unit × σ

/-- What one round of the loop takes from the rest of the input: a name, a value and the text
from `tmp_char` on. It may also find no name or no value, or go on to copy what lies behind the
end of the input. -/
inductive Cut where
  | invalid
  | outside
  | field (fieldName value rest : List Char)
  deriving DecidableEq, Repr

def cutField (structStr : List Char) : Cut :=
  match strtok (strlcpy structStr maxCmdlineInputLen) '=' with
  | none => .invalid
  | some tmp =>
    let fieldName := strlcpy tmp maxFieldInputLen
    if structStr.length < fieldName.length + 1 then .outside
    else
      let structStr := structStr.drop (fieldName.length + 1)
      match strtok (strlcpy structStr maxCmdlineInputLen) ',' with
      | none => .invalid
      | some tmp =>
        let value := strlcpy tmp maxFieldInputLen
        .field fieldName value (structStr.drop value.length)

/-- How a call ends: with a result, or with a read behind the end of the input. -/
inductive Ending where
  | returned (result : Except DocaError Unit)
  | outside

/-- A call of `parse_struct`, with the calls of `fill_struct` that it made. -/
structure Parsed (σ : Type) where
  calls : List (List Char × List Char)
  structPtr : σ
  ending : Ending

def Parsed.called (fieldName value : List Char) (p : Parsed σ) : Parsed σ :=
  { p with calls := (fieldName, value) :: p.calls }

theorem cutField_rest {s fieldName value rest : List Char}
    (h : cutField s = .field fieldName value rest) : rest.length < s.length := by
  simp only [cutField] at h
  split at h
  · cases h
  · split at h
    · cases h
    · split at h
      · cases h
      · cases h
        rw [List.length_drop, List.length_drop]
        omega

def parseStruct (fillStruct : FillStruct σ) (structStr : List Char) (structPtr : σ) : Parsed σ :=
  match hcut : cutField structStr with
  | .invalid => ⟨[], structPtr, .returned (.error .invalidValue)⟩
  | .outside => ⟨[], structPtr, .outside⟩
  | .field fieldName value rest =>
    match fillStruct fieldName value structPtr with
    | (.error e, structPtr) => ⟨[(fieldName, value)], structPtr, .returned (.error e)⟩
    | (.ok (), structPtr) =>
      if rest.head? = some ',' then
        (parseStruct fillStruct rest.tail structPtr).called fieldName value
      else ⟨[(fieldName, value)], structPtr, .returned (.ok ())⟩
termination_by structStr.length
decreasing_by
  have hlt := cutField_rest hcut
  rw [List.length_tail]
  omega

end DocaApps.Common.StructParser
