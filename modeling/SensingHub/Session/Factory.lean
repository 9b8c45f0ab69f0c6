import Mathlib.Data.Int.Notation
import SensingHub.Lib.Linker

/-!
# The session factory

`sessionFactory` finds the implementation of sessions in a library that it loads when it is first
asked for something. If the library cannot be opened, or one of the two symbols is not there, it
returns a null pointer, or no ids, and tries again the next time; once both have been found they are
kept. So there is a point up to which a client gets nothing, and from which on it gets what the
library returns, and the library is not opened again behind it (`calls_reach`).

The vector of ids that the library allocates is its list of ids; that it is deleted is left out.
-/

namespace SensingHub.Session

open LinkerOp

/-! ### The factory -/

/-- The libraries that are loaded. -/
inductive Library
  /-- `SENSING_HUB_INTERFACE_LIB_NAME` -/
  | session
  deriving DecidableEq, Repr

/-- The symbols that are looked up. -/
inductive Symbol
  | getSession
  | getSensingHubIds
  deriving DecidableEq, Repr

/-- The calls of what is found under them, which are those of the factory. -/
inductive Call
  | getSession (hubId : ℤ)
  | getSensingHubIds
  deriving DecidableEq, Repr

/-- Under which symbol a call is found. -/
def Call.symbol : Call → Symbol
  | .getSession _ => .getSession
  | .getSensingHubIds => .getSensingHubIds

/-- What a call returns: a pointer to a session, or ids. -/
abbrev Call.Result : Call → Type
  | .getSession _ => Option ℕ
  | .getSensingHubIds => List ℤ

/-- What a client gets if there is no library. -/
def Call.nothing : (c : Call) → c.Result
  | .getSession _ => none
  | .getSensingHubIds => []

/-- Programs that load the library. -/
abbrev FactoryM :=
  LinkerM Library Symbol Call.Result

/-- The static members of `sessionFactory`. -/
structure Factory where
  mSymbolLoaded : Bool
  mGetSessionSymbol : Option ℕ
  mGetSensingHubIdsSymbol : Option ℕ
  deriving DecidableEq, Repr

/-- As the program starts. -/
def Factory.initial : Factory :=
  ⟨false, none, none⟩

/-- `loadSymbol` -/
def loadSymbol (f : Factory) : FactoryM (ℤ × Factory) := do
  match ← callDlopen .session false with
  | none => return (-1, f)
  | some libHandler =>
    let getSession ← callDlsym libHandler .getSession
    let getSensingHubIds ← callDlsym libHandler .getSensingHubIds
    let f := { f with mGetSessionSymbol := getSession, mGetSensingHubIdsSymbol := getSensingHubIds }
    if getSession ≠ none ∧ getSensingHubIds ≠ none then
      return (0, { f with mSymbolLoaded := true })
    else return (-1, f)

/-- What `getSession` and `getSensingHubIds` start with. -/
def ensureLoaded (f : Factory) : FactoryM (ℤ × Factory) :=
  if f.mSymbolLoaded ≠ true then loadSymbol f else return (0, f)

/-- `getSession`; without an argument, the hub is -1. -/
def getSession (f : Factory) (hubId : ℤ) : FactoryM (Option ℕ × Factory) := do
  let (status, f) ← ensureLoaded f
  if status = 0 then
    let session ← callInvoke f.mGetSessionSymbol (.getSession hubId)
    return (session, f)
  else return (none, f)

/-- `getSensingHubIds` -/
def getSensingHubIds (f : Factory) : FactoryM (List ℤ × Factory) := do
  let (status, f) ← ensureLoaded f
  if status = 0 ∧ f.mGetSensingHubIdsSymbol ≠ none then
    let supportedHubIds ← callInvoke f.mGetSensingHubIdsSymbol .getSensingHubIds
    return (supportedHubIds, f)
  else return ([], f)

/-- A call of the factory. -/
def callFactory (f : Factory) : (c : Call) → FactoryM (c.Result × Factory)
  | .getSession hubId => getSession f hubId
  | .getSensingHubIds => getSensingHubIds f

/-- Some calls, with what they return. -/
def callsFactory (f : Factory) : List Call → FactoryM (List (Returned Call.Result) × Factory)
  | [] => return ([], f)
  | c :: cs => do
    let (r, f) ← callFactory f c
    let (rs, f) ← callsFactory f cs
    return (⟨c, r⟩ :: rs, f)

/-! ### What it does -/

section

variable (exports : Library → Symbol → Option ℕ)

/-- The library is opened only as long as it is not open, or one of the symbols is not in it. -/
def MayOpen (s : Linker Library Call.Result) (lib : Library) : Prop :=
  ¬ s.IsOpen lib ∨ ∃ symbol, exports lib symbol = none

/-- What the factory may do, and what it may rely on. -/
abbrev factoryContract : Contract (LinkerOp Library Symbol Call) (LinkerAns Call.Result)
    (Linker Library Call.Result) :=
  Linker.contract exports Call.symbol (MayOpen exports)

/-- The factory has what is in the library, or may open it. -/
structure Fits (f : Factory) (s : Linker Library Call.Result) : Prop where
  loaded : f.mSymbolLoaded = true → s.IsOpen .session ∧
    exports .session .getSession = f.mGetSessionSymbol ∧ f.mGetSessionSymbol ≠ none ∧
    exports .session .getSensingHubIds = f.mGetSensingHubIdsSymbol ∧
    f.mGetSensingHubIdsSymbol ≠ none
  unloaded : f.mSymbolLoaded ≠ true → MayOpen exports s .session

end

variable {exports : Library → Symbol → Option ℕ} {f : Factory} {s : Linker Library Call.Result}

theorem fits_initial : Fits exports .initial .fresh where
  loaded h := by cases h
  unloaded _ := .inl (by rintro ⟨h, hopen⟩; cases hopen)

/-- The library is tried to be loaded: the status says whether it is. -/
theorem wp_ensureLoaded (h : Fits exports f s) :
    (factoryContract exports).wp (ensureLoaded f) (fun r t ↦ Fits exports r.2 t ∧
      t.invoked = s.invoked ∧ (r.1 = 0 ↔ r.2.mSymbolLoaded = true) ∧
      (f.mSymbolLoaded = true → r.2.mSymbolLoaded = true)) s := by
  unfold ensureLoaded
  by_cases hloaded : f.mSymbolLoaded = true
  · rw [if_neg (not_not.2 hloaded)]
    exact Contract.wp_pure ⟨h, rfl, iff_of_true rfl hloaded, fun _ ↦ hloaded⟩
  rw [if_pos hloaded]
  refine Linker.wp_dlopen (h.unloaded hloaded) (fun libHandler _ ↦ ?_) ?_
  · have hopened := Linker.opened_enter (s.attempt .session) libHandler .session
    refine Linker.wp_dlsym hopened (Linker.wp_dlsym hopened ?_)
    split
    · next hfound =>
      refine Contract.wp_pure ⟨⟨fun _ ↦ ⟨⟨libHandler, hopened⟩, rfl, hfound.1, rfl, hfound.2⟩,
        fun hnot ↦ absurd rfl hnot⟩, rfl, iff_of_true rfl rfl, fun _ ↦ rfl⟩
    · next hmissing =>
      have hnone : ∃ symbol, exports .session symbol = none := by
        by_contra hall
        exact hmissing ⟨fun hnone ↦ hall ⟨_, hnone⟩, fun hnone ↦ hall ⟨_, hnone⟩⟩
      exact Contract.wp_pure ⟨⟨fun hyes ↦ absurd hyes hloaded, fun _ ↦ .inr hnone⟩, rfl,
        iff_of_false (show ¬(-1 : ℤ) = 0 by decide) hloaded, fun hyes ↦ absurd hyes hloaded⟩
  · exact Contract.wp_pure ⟨⟨fun hyes ↦ absurd hyes hloaded, fun _ ↦ h.unloaded hloaded⟩, rfl,
      iff_of_false (show ¬(-1 : ℤ) = 0 by decide) hloaded, fun hyes ↦ absurd hyes hloaded⟩

/-- What a call of the factory comes to: a call of the library, or nothing. -/
def Comes (f : Factory) (c : Call) (s : Linker Library Call.Result) (r : c.Result) (f' : Factory)
    (t : Linker Library Call.Result) : Prop :=
  if f'.mSymbolLoaded = true then t.invoked = s.invoked ++ [⟨c, r⟩]
  else r = c.nothing ∧ t.invoked = s.invoked ∧ f.mSymbolLoaded ≠ true

theorem wp_callFactory (h : Fits exports f s) (c : Call) :
    (factoryContract exports).wp (callFactory f c) (fun r t ↦ Fits exports r.2 t ∧
      Comes f c s r.1 r.2 t) s := by
  cases c with
  | getSession hubId =>
    refine Contract.wp_then (wp_ensureLoaded h) ?_
    rintro ⟨status, f'⟩ t ⟨hfits, hinvoked, hstatus, hkept⟩
    dsimp only at hfits hstatus hkept ⊢
    by_cases hzero : status = 0
    · have hloaded := hstatus.1 hzero
      obtain ⟨hopen, hfound, hne, -, -⟩ := hfits.loaded hloaded
      rw [if_pos hzero]
      refine Linker.wp_invoke hne hopen hfound fun r ↦ Contract.wp_pure ⟨⟨hfits.loaded,
        hfits.unloaded⟩, ?_⟩
      rw [Comes, if_pos hloaded, ← hinvoked]
      rfl
    · have hloaded := mt hstatus.2 hzero
      rw [if_neg hzero]
      refine Contract.wp_pure ⟨hfits, ?_⟩
      rw [Comes, if_neg hloaded]
      exact ⟨rfl, hinvoked, mt hkept hloaded⟩
  | getSensingHubIds =>
    refine Contract.wp_then (wp_ensureLoaded h) ?_
    rintro ⟨status, f'⟩ t ⟨hfits, hinvoked, hstatus, hkept⟩
    dsimp only at hfits hstatus hkept ⊢
    by_cases hzero : status = 0
    · have hloaded := hstatus.1 hzero
      obtain ⟨hopen, -, -, hfound, hne⟩ := hfits.loaded hloaded
      rw [if_pos ⟨hzero, hne⟩]
      refine Linker.wp_invoke hne hopen hfound fun r ↦ Contract.wp_pure ⟨⟨hfits.loaded,
        hfits.unloaded⟩, ?_⟩
      rw [Comes, if_pos hloaded, ← hinvoked]
      rfl
    · have hloaded := mt hstatus.2 hzero
      rw [if_neg fun hboth ↦ hzero hboth.1]
      refine Contract.wp_pure ⟨hfits, ?_⟩
      rw [Comes, if_neg hloaded]
      exact ⟨rfl, hinvoked, mt hkept hloaded⟩

/-- What some calls of the factory come to: nothing up to a point, and calls of the library from
there on. -/
structure Reach (f : Factory) (cs : List Call) (s : Linker Library Call.Result)
    (rs : List (Returned Call.Result)) (t : Linker Library Call.Result) : Prop where
  split : ∃ pre post added, cs = pre ++ post ∧ (f.mSymbolLoaded = true → pre = []) ∧
    t.invoked = s.invoked ++ added ∧ added.map Sigma.fst = post ∧
    rs = pre.map (fun c ↦ ⟨c, c.nothing⟩) ++ added

theorem wp_callsFactory (h : Fits exports f s) (cs : List Call) :
    (factoryContract exports).wp (callsFactory f cs) (fun r t ↦ Fits exports r.2 t ∧
      Reach f cs s r.1 t) s := by
  induction cs generalizing f s with
  | nil =>
    exact Contract.wp_pure
      ⟨h, [], [], [], rfl, fun _ ↦ rfl, (List.append_nil _).symm, rfl, rfl⟩
  | cons c cs ih =>
    refine Contract.wp_then (wp_callFactory h c) ?_
    rintro ⟨r, f'⟩ t ⟨hfits, hcomes⟩
    refine Contract.wp_then (ih hfits) ?_
    rintro ⟨rs, f''⟩ u ⟨hfits', pre, post, added, rfl, hpre, hinvoked, hcalls, rfl⟩
    refine Contract.wp_pure ⟨hfits', ?_⟩
    unfold Comes at hcomes
    split at hcomes
    · next hloaded =>
      -- the library is there from this call on, at the latest
      cases hpre hloaded
      refine ⟨[], c :: post, ⟨c, r⟩ :: added, rfl, fun _ ↦ rfl, ?_, ?_, rfl⟩
      · rw [hinvoked, hcomes, List.append_assoc]
        rfl
      · rw [List.map_cons, hcalls]
    · obtain ⟨rfl, hsame, hnot⟩ := hcomes
      refine ⟨c :: pre, post, added, rfl, fun hyes ↦ absurd hyes hnot, ?_, hcalls, rfl⟩
      rw [hinvoked, hsame]

/-- **From the first success on every call reaches the library**: whatever clients ask the factory
for, it looks up symbols in an open library only and calls nothing but what it has found there,
opens the library again only as long as something is missing, and gives its clients nothing up to
some call, and what the library has returned, call by call, from there on. -/
theorem calls_reach (cs : List Call) {es : List (Interaction.Event (LinkerOp Library Symbol Call)
      (LinkerAns Call.Result))} {q : FactoryM (List (Returned Call.Result) × Factory)}
    (hsteps : Interaction.Steps (callsFactory .initial cs) es q)
    (hanswered : (factoryContract exports).Answered .fresh es) :
    (factoryContract exports).Respected .fresh es ∧
      (∀ op next, q = .call op next →
        (factoryContract exports).allows ((factoryContract exports).after .fresh es) op) ∧
      ∀ rs f, q = .ret (rs, f) → ∃ pre post, cs = pre ++ post ∧
        ((factoryContract exports).after .fresh es).invoked.map Sigma.fst = post ∧
        rs = pre.map (fun c ↦ ⟨c, c.nothing⟩) ++
          ((factoryContract exports).after .fresh es).invoked := by
  obtain ⟨hrespected, hwp⟩ := Contract.wp_steps (wp_callsFactory fits_initial cs) hsteps hanswered
  refine ⟨hrespected, ?_, ?_⟩
  · rintro op next rfl
    exact hwp.1
  · rintro rs f rfl
    obtain ⟨-, pre, post, added, hsplit, -, hinvoked, hcalls, hrs⟩ := hwp
    rw [hinvoked]
    exact ⟨pre, post, hsplit, hcalls, hrs⟩

/-- A library that cannot be opened at first. -/
def lateLibrary : List (Interaction.Event (LinkerOp Library Symbol Call) (LinkerAns Call.Result)) :=
  [⟨.dlopen .session false, none⟩, ⟨.dlopen .session false, some 7⟩,
    ⟨.dlsym 7 .getSession, some 16⟩, ⟨.dlsym 7 .getSensingHubIds, some 32⟩,
    ⟨.invoke (some 16) (.getSession (-1)), some 1⟩, ⟨.invoke (some 32) .getSensingHubIds, [1, 2]⟩]

/-- The symbols in it. -/
def lateExports : Library → Symbol → Option ℕ
  | .session, .getSession => some 16
  | .session, .getSensingHubIds => some 32

theorem answered_lateLibrary : (factoryContract lateExports).Answered .fresh lateLibrary := by
  refine ⟨nofun, fun _ _ ↦ .inl rfl, ?_, ?_, trivial, trivial, trivial⟩
  · rintro lib hopen
    cases hopen
    rfl
  · rintro lib hopen
    cases hopen
    rfl

theorem run_lateLibrary :
    Interaction.Run (callsFactory .initial [.getSensingHubIds, .getSession (-1), .getSensingHubIds])
      lateLibrary ([⟨.getSensingHubIds, []⟩, ⟨.getSession (-1), some 1⟩,
        ⟨.getSensingHubIds, [1, 2]⟩], ⟨true, some 16, some 32⟩) :=
  .call _ (.call _ (.call _ (.call _ (.call _ (.call _ (.refl _))))))

theorem calls_reach_lateLibrary :
    ∃ pre post, [.getSensingHubIds, .getSession (-1), .getSensingHubIds] = pre ++ post ∧
      ((factoryContract lateExports).after .fresh lateLibrary).invoked.map Sigma.fst = post ∧
      [⟨.getSensingHubIds, []⟩, ⟨.getSession (-1), some 1⟩, ⟨.getSensingHubIds, [1, 2]⟩] =
        pre.map (fun c ↦ ⟨c, c.nothing⟩) ++
          ((factoryContract lateExports).after .fresh lateLibrary).invoked :=
  (calls_reach _ run_lateLibrary answered_lateLibrary).2.2 _ _ rfl

end SensingHub.Session
