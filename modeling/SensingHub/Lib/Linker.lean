import Mathlib.Logic.Function.Basic
import SensingHub.Lib.Interaction

/-!
# Libraries that are loaded at run time

The interface of a dynamic linker: libraries are opened, symbols looked up in them, and what has
been found is called, with what the functions return. Which symbols a library has does not change,
since it stays in memory once it has been opened; whether it can be opened may differ from one
attempt to the next.

The contract asks of a program that it looks for symbols in open libraries only and calls nothing
but what it has found there, under the right symbol. When it may open a library is a parameter.
-/

/-- The operations of the linker, for libraries `L`, symbols `S` and calls `C`. -/
inductive LinkerOp (L S C : Type)
  | dlopen (lib : L) (noload : Bool)
  | dlsym (handle : ℕ) (symbol : S)
  /-- A call of what a pointer points to, be it null or not. -/
  | invoke (p : Option ℕ) (c : C)

/-- What they return, `R` being what the calls return. -/
abbrev LinkerAns {L S C : Type} (R : C → Type) : LinkerOp L S C → Type
  | .dlopen _ _ | .dlsym _ _ => Option ℕ
  | .invoke _ c => R c

/-- Programs that load libraries. -/
abbrev LinkerM (L S : Type) {C : Type} (R : C → Type) :=
  Interaction (LinkerOp L S C) (LinkerAns R)

namespace LinkerOp

variable {L S C : Type} {R : C → Type}

/-! The operations as programs. -/

abbrev callDlopen (lib : L) (noload : Bool) : LinkerM L S R (Option ℕ) :=
  Interaction.perform (dlopen lib noload)

abbrev callDlsym (handle : ℕ) (symbol : S) : LinkerM L S R (Option ℕ) :=
  Interaction.perform (dlsym handle symbol)

abbrev callInvoke (p : Option ℕ) (c : C) : LinkerM L S R (R c) :=
  Interaction.perform (invoke p c)

end LinkerOp

/-- A call and what it returned. -/
abbrev Returned {C : Type} (R : C → Type) :=
  Σ c, R c

/-- The open libraries by their handles, how often each has been tried, and the calls so far. -/
structure Linker (L : Type) {C : Type} (R : C → Type) where
  opened : ℕ → Option L
  tried : L → ℕ
  invoked : List (Returned R)

namespace Linker

variable {L S C : Type} {R : C → Type}

/-- Nothing is open. -/
def fresh : Linker L R :=
  ⟨fun _ ↦ none, fun _ ↦ 0, []⟩

/-- The library is open. -/
def IsOpen (s : Linker L R) (lib : L) : Prop :=
  ∃ h, s.opened h = some lib

/-- With one more open library. -/
def enter (s : Linker L R) (h : ℕ) (lib : L) : Linker L R :=
  { s with opened := Function.update s.opened h (some lib) }

/-- With one more call. -/
def record (s : Linker L R) (e : Returned R) : Linker L R :=
  { s with invoked := s.invoked ++ [e] }

theorem opened_enter (s : Linker L R) (h : ℕ) (lib : L) :
    (s.enter h lib).opened h = some lib :=
  Function.update_self (β := fun _ ↦ Option L) h _ s.opened

/-- What was open stays open. -/
theorem IsOpen.enter {s : Linker L R} {lib lib' : L} {h : ℕ} (hopen : s.IsOpen lib')
    (hfree : s.opened h = none ∨ s.opened h = some lib) : (s.enter h lib).IsOpen lib' := by
  obtain ⟨h', hh'⟩ := hopen
  by_cases hsame : h' = h
  · subst hsame
    rcases hfree with hnone | hsome
    · cases hnone.symm.trans hh'
    · cases hsome.symm.trans hh'
      exact ⟨h', opened_enter s h' lib⟩
  · exact ⟨h', (Function.update_of_ne (β := fun _ ↦ Option L) hsame _ s.opened).trans hh'⟩

/-- Nothing else is open then. -/
theorem isOpen_enter {s : Linker L R} {lib lib' : L} {h : ℕ} (hopen : (s.enter h lib).IsOpen lib')
    (hne : lib' ≠ lib) : s.IsOpen lib' := by
  obtain ⟨h', hh'⟩ := hopen
  by_cases hsame : h' = h
  · subst hsame
    cases (opened_enter s h' lib).symm.trans hh'
    exact absurd rfl hne
  · exact ⟨h', (Function.update_of_ne (β := fun _ ↦ Option L) hsame _ s.opened).symm.trans hh'⟩

variable [DecidableEq L]

/-- With one more attempt to open a library. -/
def attempt (s : Linker L R) (lib : L) : Linker L R :=
  { s with tried := Function.update s.tried lib (s.tried lib + 1) }

/-- The contract, for libraries with the symbols `exports`: `symbolOf` says under which symbol a
call is found, and `mayOpen` when a library may be opened. -/
def contract (exports : L → S → Option ℕ) (symbolOf : C → S) (mayOpen : Linker L R → L → Prop) :
    Contract (LinkerOp L S C) (LinkerAns R) (Linker L R) where
  allows s
    | .dlopen lib _ => mayOpen s lib
    | .dlsym h _ => ∃ lib, s.opened h = some lib
    | .invoke p c => p ≠ none ∧ ∃ lib, s.IsOpen lib ∧ exports lib (symbolOf c) = p
  answers s
    | .dlopen lib _, r => ∀ h, r = some h → s.opened h = none ∨ s.opened h = some lib
    | .dlsym h symbol, r => ∀ lib, s.opened h = some lib → r = exports lib symbol
    | .invoke _ _, _ => True
  next s
    | .dlopen lib _, some h => (s.attempt lib).enter h lib
    | .dlopen lib _, none => s.attempt lib
    | .dlsym _ _, _ => s
    | .invoke _ c, r => s.record ⟨c, r⟩

section

variable {exports : L → S → Option ℕ} {symbolOf : C → S} {mayOpen : Linker L R → L → Prop}
  {α : Type} {Q : α → Linker L R → Prop} {s : Linker L R}

theorem wp_dlopen {lib : L} {noload : Bool} {f : Option ℕ → LinkerM L S R α}
    (hmay : mayOpen s lib)
    (hsome : ∀ h, s.opened h = none ∨ s.opened h = some lib →
      (contract exports symbolOf mayOpen).wp (f (some h)) Q ((s.attempt lib).enter h lib))
    (hnone : (contract exports symbolOf mayOpen).wp (f none) Q (s.attempt lib)) :
    (contract exports symbolOf mayOpen).wp (LinkerOp.callDlopen lib noload >>= f) Q s := by
  refine Contract.wp_perform hmay fun r hr ↦ ?_
  cases r with
  | none => exact hnone
  | some h => exact hsome h (hr h rfl)

theorem wp_dlsym {lib : L} {h : ℕ} {symbol : S} {f : Option ℕ → LinkerM L S R α}
    (hopen : s.opened h = some lib)
    (hfound : (contract exports symbolOf mayOpen).wp (f (exports lib symbol)) Q s) :
    (contract exports symbolOf mayOpen).wp (LinkerOp.callDlsym h symbol >>= f) Q s := by
  refine Contract.wp_perform ⟨lib, hopen⟩ fun r hr ↦ ?_
  cases hr lib hopen
  exact hfound

theorem wp_invoke {lib : L} {p : Option ℕ} {c : C} {f : R c → LinkerM L S R α} (hp : p ≠ none)
    (hopen : s.IsOpen lib) (hfound : exports lib (symbolOf c) = p)
    (hcall : ∀ r, (contract exports symbolOf mayOpen).wp (f r) Q (s.record ⟨c, r⟩)) :
    (contract exports symbolOf mayOpen).wp (LinkerOp.callInvoke p c >>= f) Q s :=
  Contract.wp_perform ⟨hp, lib, hopen, hfound⟩ fun r _ ↦ hcall r

end

end Linker
