import Mathlib.Tactic.Common

/-!
# Errors and call results

`CalError` follows `src/error.rs`: a kind and a message. A call of the library either returns a
value, returns a `CalError`, or panics (a failed `unwrap`); `Res` keeps the three apart.
-/

namespace Rounac

/-- The categories of `CalError`. -/
inductive CalErrorKind
  | config
  | illegal
  | io
  | network
  | serde
  | other
deriving DecidableEq, Repr

/-- An error of the CAL: its kind, and the text of the error it wraps. -/
structure CalError where
  kind : CalErrorKind
  data : String
deriving DecidableEq, Repr

namespace CalError

/-! The `kind_helpers!` constructors. -/

def configErr (msg : String) : CalError := ⟨.config, msg⟩

def illErr (msg : String) : CalError := ⟨.illegal, msg⟩

def netErr (msg : String) : CalError := ⟨.network, msg⟩

def otherErr (msg : String) : CalError := ⟨.other, msg⟩

def serdeErr (msg : String) : CalError := ⟨.serde, msg⟩

end CalError

/-- How a call ends. -/
inductive Res (α : Type*)
  | ok (a : α)
  | err (e : CalError)
  | panicked
deriving DecidableEq, Repr

namespace Res

def ofExcept {α : Type*} : Except CalError α → Res α
  | .ok a => .ok a
  | .error e => .err e

end Res

end Rounac
