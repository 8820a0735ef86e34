import Rounac.Config
import Rounac.Lib.Validator

/-!
# Parameter parsing

`ParamTool` of `src/config/params.rs`: the optional parameters of a network, read out of its TOML
table. An absent parameter is fine; one of the wrong type is an error that names it.
-/

namespace Rounac

open Validator

/-- The types of TOML value that a parameter is expected to have. -/
inductive ParamType
  | string
  | integer
deriving DecidableEq, Repr

namespace ParamType

def name : ParamType → String
  | string => "string"
  | integer => "integer"

/-- Whether a value has the type. -/
def Accepts : ParamType → TomlValue → Bool
  | string, .string _ => true
  | integer, .integer _ => true
  | _, _ => false

end ParamType

namespace TomlValue

def asString : TomlValue → Option String
  | string s => some s
  | _ => none

def asInteger : TomlValue → Option Int64
  | integer i => some i
  | _ => none

end TomlValue

/-! ## The readers -/

namespace ParamTool

/-- The error about a parameter of the wrong type. -/
def expectedParam (ty : ParamType) (param : String) : CalError :=
  .configErr ("Expected " ++ ty.name ++ " parameter \"" ++ param ++ "\".")

/-- The body of the readers of an optional parameter: `content` matches the expected variant. -/
def getParam {α : Type} (ty : ParamType) (content : TomlValue → Option α) (params : Table)
    (param : String) : Except CalError (Option α) :=
  match params.lookup param with
  | none => .ok none
  | some v =>
    match content v with
    | some a => .ok (some a)
    | none => .error (expectedParam ty param)

/-- `get_str`. -/
def getStr : Table → String → Except CalError (Option String) := getParam .string TomlValue.asString

/-- `get_int`. -/
def getInt : Table → String → Except CalError (Option Int64) :=
  getParam .integer TomlValue.asInteger

end ParamTool

/-! ## What a table configures -/

def Table.str (params : Table) (param : String) : Option String :=
  (params.lookup param).bind TomlValue.asString

def Table.int (params : Table) (param : String) : Option Int64 :=
  (params.lookup param).bind TomlValue.asInteger

/-- The table has a value under the parameter, of a wrong type. -/
def Table.Mistyped (params : Table) (p : String × ParamType) : Prop :=
  ((params.lookup p.1).any fun v => !p.2.Accepts v) = true

instance (params : Table) : DecidablePred params.Mistyped :=
  fun _ => inferInstanceAs (Decidable (_ = true))

/-- The fault of a parameter. -/
def Table.fault (params : Table) (p : String × ParamType) : Option CalError :=
  Validator.fault (params.Mistyped p) (ParamTool.expectedParam p.2 p.1)

variable {params : Table}

theorem Table.mistyped_of_lookup {p : String × ParamType} {v : TomlValue}
    (h : params.lookup p.1 = some v) : params.Mistyped p ↔ p.2.Accepts v = false := by
  simp [Mistyped, h]

theorem Table.not_mistyped_of_absent {p : String × ParamType} (h : params.lookup p.1 = none) :
    ¬ params.Mistyped p := by
  simp [Mistyped, h]

theorem Table.isSome_str {param : String} (h : ¬ params.Mistyped (param, .string)) :
    (params.str param).isSome = (params.lookup param).isSome := by
  unfold Table.str
  cases hv : params.lookup param with
  | none => rfl
  | some v =>
    rw [mistyped_of_lookup hv, Bool.not_eq_false] at h
    cases v with
    | string s => rfl
    | _ => cases h

namespace ParamTool

theorem getParam_checked {α : Type} {ty : ParamType} {content : TomlValue → Option α}
    (hty : ∀ v, ty.Accepts v = (content v).isSome) (params : Table) (param : String) :
    Checked (getParam ty content params param) [params.fault (param, ty)]
      ((params.lookup param).bind content) := by
  unfold getParam
  cases hv : params.lookup param with
  | none =>
    have hfault : params.fault (param, ty) = none := if_neg (Table.not_mistyped_of_absent hv)
    rw [hfault]
    rfl
  | some v =>
    have hmis := Table.mistyped_of_lookup (p := (param, ty)) hv
    dsimp only [Option.bind_some]
    cases hc : content v with
    | some a =>
      have hfault : params.fault (param, ty) = none := if_neg (by rw [hmis, hty, hc]; simp)
      rw [hfault]
      rfl
    | none =>
      have hfault : params.fault (param, ty) = some (expectedParam ty param) :=
        if_pos (by rw [hmis, hty, hc]; rfl)
      rw [hfault]
      rfl

theorem getStr_checked (params : Table) (param : String) :
    Checked (getStr params param) [params.fault (param, .string)] (params.str param) := by
  apply getParam_checked
  intro v
  cases v <;> rfl

theorem getInt_checked (params : Table) (param : String) :
    Checked (getInt params param) [params.fault (param, .integer)] (params.int param) := by
  apply getParam_checked
  intro v
  cases v <;> rfl

end ParamTool

/-! ## Parameters as a whole -/

/-- An error about parameters is about one of them, and that one has the wrong type. -/
theorem Table.exists_mistyped_of_fault {used : List (String × ParamType)} {e : CalError}
    (h : some e ∈ used.map params.fault) :
    ∃ p ∈ used, params.Mistyped p ∧ e = ParamTool.expectedParam p.2 p.1 := by
  obtain ⟨p, hp, hfault⟩ := List.mem_map.1 h
  obtain ⟨hmis, he⟩ := fault_eq_some.1 hfault
  exact ⟨p, hp, hmis, he.symm⟩

@[simp] theorem Table.faulty_iff {used : List (String × ParamType)} :
    Faulty (used.map params.fault) ↔ ∃ p ∈ used, params.Mistyped p := by
  simp only [Faulty, List.mem_map, exists_exists_and_eq_and, Table.fault, isSome_fault]

end Rounac
