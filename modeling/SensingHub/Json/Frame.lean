import SensingHub.Json.Parser

/-!
# What the functions of the parser do to the parser object

Whatever file they are given, the functions of the parser change the parser object in two ways only:
by calls of `updateSensingHubInfo`, and in what is known of the device's id. So a relation between
parser objects that both stay within is one that every function stays within, however it ends and
however much fuel it has (`ReadsWithin`, `within_parseFile`).
-/

namespace SensingHub.Json

open CLib (str)

/-- A relation between parser objects that reading items and ids stays within. -/
class ReadsWithin (R : QshJsonParser → QshJsonParser → Prop) : Prop where
  refl : ∀ p, R p p
  trans : ∀ {p q r}, R p q → R q r → R p r
  update : ∀ p grpName key value, R p (p.updateSensingHubInfo grpName key value)
  soc : ∀ (p : QshJsonParser) (socIds : List ℤ) (socId : ℤ),
    R p { p with mJsonSocIdList := socIds, mJsonSocId := socId }

/-- The relation between the parser objects of two machines. -/
def OnParser (R : QshJsonParser → QshJsonParser → Prop) (m m' : Machine) : Prop :=
  R m.parser m'.parser

variable {R : QshJsonParser → QshJsonParser → Prop} [ReadsWithin R]

instance : Std.Refl (OnParser R) where
  refl m := ReadsWithin.refl m.parser

instance : IsTrans Machine (OnParser R) where
  trans _ _ _ h₁ h₂ := ReadsWithin.trans h₁ h₂

/-- A function that leaves the parser object alone. -/
theorem OnParser.of_parser_eq {m m' : Machine} (h : m'.parser = m.parser) : OnParser R m m' := by
  unfold OnParser
  rw [h]
  exact ReadsWithin.refl m.parser

section Functions

open Prog (Within)

theorem within_byteAt (i : ℕ) : Within (OnParser R) (byteAt i) := by
  refine Within.bind (Within.read _) fun b ↦ ?_
  cases b with
  | none => exact Within.stop _
  | some b => exact Within.pure _

theorem within_nulAt (i : ℕ) : Within (OnParser R) (nulAt i) :=
  Within.bind (Within.read _) fun _ ↦
    Within.ite (Within.modify fun _ ↦ OnParser.of_parser_eq rfl) (Within.stop _)

theorem within_cStringAt (i : ℕ) : Within (OnParser R) (cStringAt i) := by
  refine Within.bind (Within.read _) fun s ↦ ?_
  cases s with
  | none => exact Within.stop _
  | some s => exact Within.pure _

theorem within_strchrAt (i : ℕ) (c : UInt8) : Within (OnParser R) (strchrAt i c) := by
  refine Within.bind (Within.read _) fun found ↦ ?_
  cases found with
  | none => exact Within.stop _
  | some found => exact Within.pure _

theorem within_wrapped {α : Type} (a : α) :
    Within (OnParser R) (do Prog.modify fun m ↦ { m with wrapped := true }; pure a : ParserM α) :=
  Within.bind (Within.modify fun _ ↦ OnParser.of_parser_eq rfl) fun _ ↦ Within.pure _

theorem within_add (a b : ℕ) : Within (OnParser R) (add a b) :=
  Within.ite (Within.pure _) (within_wrapped _)

theorem within_sub (a b : ℕ) : Within (OnParser R) (sub a b) :=
  Within.ite (Within.pure _) (within_wrapped _)

theorem within_addInt (a b : ℤ) : Within (OnParser R) (addInt a b) :=
  Within.ite (Within.pure _) (within_wrapped _)

theorem within_pointer (json : ℕ) (cidx : ℤ) : Within (OnParser R) (pointer json cidx) :=
  Within.ite (Within.stop _) (Within.pure _)

theorem within_whitespaceLoop (s left cidx : ℕ) :
    Within (OnParser R) (whitespaceLoop s left cidx) := by
  induction left generalizing cidx with
  | zero => exact Within.pure _
  | succ left ih =>
    exact Within.bind (within_byteAt _) fun _ ↦ Within.ite (ih _) (Within.pure _)

theorem within_getWhitespaceLen (s strLen : ℕ) : Within (OnParser R) (getWhitespaceLen s strLen) :=
  within_whitespaceLoop s strLen 0

theorem within_skipWhitespace (json jsonlen cidx : ℕ) :
    Within (OnParser R) (skipWhitespace json jsonlen cidx) :=
  Within.bind (within_sub _ _) fun _ ↦
    Within.bind (within_getWhitespaceLen _ _) fun _ ↦ within_add _ _

theorem within_parsePairValue (json jsonlen cidx key : ℕ) :
    Within (OnParser R) (parsePairValue json jsonlen cidx key) := by
  refine Within.bind (within_skipWhitespace _ _ _) fun c ↦ Within.ite (Within.pure _) ?_
  refine Within.bind (within_byteAt _) fun b ↦ Within.ite ?_ ?_
  · refine Within.bind (within_add _ _) fun c ↦ Within.bind (within_strchrAt _ _) fun found ↦ ?_
    cases found with
    | none => exact Within.pure _
    | some found =>
      exact Within.bind (within_add _ _) fun _ ↦ Within.bind (within_nulAt _) fun _ ↦
        Within.bind (within_add _ _) fun _ ↦
          Within.bind (within_skipWhitespace _ _ _) fun _ ↦ Within.pure _
  · exact Within.ite (Within.pure _) (Within.pure _)

theorem within_parsePair (json jsonlen : ℕ) : Within (OnParser R) (parsePair json jsonlen) := by
  refine Within.ite (Within.pure _) ?_
  refine Within.bind (within_byteAt _) fun b ↦ Within.ite (Within.pure _) ?_
  refine Within.bind (within_strchrAt _ _) fun found ↦ ?_
  cases found with
  | none => exact Within.pure _
  | some found =>
    refine Within.ite (Within.pure _) ?_
    refine Within.bind (within_add _ _) fun _ ↦ Within.bind (within_nulAt _) fun _ ↦ ?_
    refine Within.bind (within_add _ _) fun _ ↦ Within.bind (within_skipWhitespace _ _ _) fun _ ↦ ?_
    refine Within.ite (Within.pure _) (Within.bind (within_byteAt _) fun _ ↦ ?_)
    exact Within.ite (Within.pure _)
      (Within.bind (within_add _ _) fun _ ↦ within_parsePairValue _ _ _ _)

theorem within_nextPair (json jsonlen cidx : ℕ) :
    Within (OnParser R) (nextPair json jsonlen cidx) :=
  Within.bind (within_skipWhitespace _ _ _) fun _ ↦ Within.bind (within_sub _ _) fun _ ↦
    Within.bind (within_parsePair _ _) fun _ ↦ Within.pure _

theorem within_commaAt (json cidx : ℕ) : Within (OnParser R) (commaAt json cidx) :=
  Within.bind (within_byteAt _) fun _ ↦
    Within.ite (Within.bind (within_add _ _) fun _ ↦ Within.pure _) (Within.pure _)

theorem within_commaWithin (json jsonlen cidx : ℕ) :
    Within (OnParser R) (commaWithin json jsonlen cidx) :=
  Within.ite (within_commaAt _ _) (Within.pure _)

theorem within_closingBracket (json jsonlen cidx : ℕ) :
    Within (OnParser R) (closingBracket json jsonlen cidx) :=
  Within.ite (Within.pure _) <| Within.bind (within_byteAt _) fun _ ↦
    Within.ite (Within.pure _) (Within.bind (within_add _ _) fun _ ↦ Within.pure _)

theorem within_readData (key value : ℕ) (itemValue : Bytes) :
    Within (OnParser R) (readData key value itemValue) :=
  Within.bind (within_cStringAt _) fun _ ↦
    Within.ite (Within.bind (within_cStringAt _) fun _ ↦ Within.pure _) (Within.pure _)

theorem within_parseItemLoop (fuel json jsonlen cidx : ℕ) (itemValue : Bytes) :
    Within (OnParser R) (parseItemLoop fuel json jsonlen cidx itemValue) := by
  induction fuel generalizing cidx itemValue with
  | zero => exact Within.stop _
  | succ fuel ih =>
    refine Within.bind (within_nextPair _ _ _) fun ⟨c, pair⟩ ↦ ?_
    refine Within.bind (within_add _ _) fun c ↦ ?_
    split
    · refine Within.bind (within_readData _ _ _) fun _ ↦ ?_
      refine Within.bind (within_skipWhitespace _ _ _) fun _ ↦ ?_
      refine Within.bind (within_commaWithin _ _ _) fun ⟨more, c⟩ ↦ ?_
      exact Within.ite (ih _ _) (Within.bind (within_closingBracket _ _ _) fun _ ↦ Within.pure _)
    · exact Within.pure _

theorem within_parseItem (fuel json jsonlen : ℕ) (itemValue : Bytes) :
    Within (OnParser R) (parseItem fuel json jsonlen itemValue) :=
  Within.ite (Within.pure _) <| Within.bind (within_byteAt _) fun _ ↦
    Within.ite (Within.pure _) (within_parseItemLoop _ _ _ _ _)

/-- The call of `updateSensingHubInfo`. -/
theorem within_readItem (fuel grpName key json jsonlen : ℕ) :
    Within (OnParser R) (readItem fuel grpName key json jsonlen) := by
  refine Within.bind (Within.read _) fun before ↦ ?_
  refine Within.bind (Within.modify fun _ ↦ OnParser.of_parser_eq rfl) fun _ ↦ ?_
  refine Within.bind (within_parseItem _ _ _ _) fun ⟨len, value⟩ ↦ ?_
  refine Within.bind (within_cStringAt _) fun _ ↦ Within.bind (within_cStringAt _) fun _ ↦ ?_
  exact Within.bind (Within.modify fun _ ↦ ReadsWithin.update _ _ _ _)
    fun _ ↦ Within.pure _

variable {loop : (grpName json jsonlen cidx : ℕ) → ParserM (Option ℕ)}

theorem within_parseGroupWith (hloop : ∀ g j l c, Within (OnParser R) (loop g j l c))
    (grpName json jsonlen : ℕ) : Within (OnParser R) (parseGroupWith loop grpName json jsonlen) :=
  Within.ite (Within.pure _) <| Within.bind (within_byteAt _) fun _ ↦
    Within.ite (Within.pure _) (hloop _ _ _ _)

theorem within_parseNested (hloop : ∀ g j l c, Within (OnParser R) (loop g j l c))
    (fuel grpName key json jsonlen : ℕ) :
    Within (OnParser R) (parseNested loop fuel grpName key json jsonlen) :=
  Within.bind (within_byteAt _) fun _ ↦ Within.ite (within_parseGroupWith hloop _ _ _)
    (Within.bind (within_readItem _ _ _ _ _) fun _ ↦ Within.pure _)

theorem within_parseGroupMember (hloop : ∀ g j l c, Within (OnParser R) (loop g j l c))
    (fuel grpName json jsonlen cidx : ℕ) :
    Within (OnParser R) (parseGroupMember loop fuel grpName json jsonlen cidx) := by
  refine Within.bind (within_nextPair _ _ _) fun ⟨c, pair⟩ ↦ ?_
  refine Within.bind (within_add _ _) fun c ↦ ?_
  split
  · exact Within.pure _
  · refine Within.bind (within_sub _ _) fun _ ↦ ?_
    refine Within.bind (within_parseNested hloop _ _ _ _ _) fun len ↦ ?_
    split
    · exact Within.bind (within_add _ _) fun _ ↦ Within.pure _
    · exact Within.pure _
  · exact Within.pure _

theorem within_parseGroupLoop (fuel grpName json jsonlen cidx : ℕ) :
    Within (OnParser R) (parseGroupLoop fuel grpName json jsonlen cidx) := by
  induction fuel generalizing grpName json jsonlen cidx with
  | zero => exact Within.stop _
  | succ fuel ih =>
    refine Within.bind (within_parseGroupMember ih _ _ _ _ _) fun member ↦ ?_
    cases member with
    | none => exact Within.pure _
    | some c =>
      refine Within.bind (within_skipWhitespace _ _ _) fun _ ↦ ?_
      refine Within.bind (within_commaAt _ _) fun ⟨more, c⟩ ↦ ?_
      exact Within.ite (ih _ _ _ _) (within_closingBracket _ _ _)

theorem within_pushSocIds (tokens : List Bytes) : Within (OnParser R) (pushSocIds tokens) := by
  induction tokens with
  | nil => exact Within.pure _
  | cons token tokens ih =>
    unfold pushSocIds
    split
    · exact Within.bind (Within.modify fun _ ↦ ReadsWithin.soc _ _ _) fun _ ↦ ih
    · exact Within.stop _
    · exact Within.stop _

theorem within_readSocIds (key : ℕ) (value : Option ℕ) :
    Within (OnParser R) (readSocIds key value) := by
  cases value with
  | none => exact Within.pure _
  | some value =>
    exact Within.bind (within_cStringAt _) fun _ ↦ Within.ite
      (Within.bind (within_cStringAt _) fun _ ↦ within_pushSocIds _) (Within.pure _)

theorem within_parseConfigItemLoop (fuel json jsonLen cidx : ℕ) :
    Within (OnParser R) (parseConfigItemLoop fuel json jsonLen cidx) := by
  induction fuel generalizing cidx with
  | zero => exact Within.stop _
  | succ fuel ih =>
    refine Within.ite (Within.pure _) (Within.bind (within_nextPair _ _ _) fun ⟨c, pair⟩ ↦ ?_)
    simp only
    split
    · refine Within.bind (within_add _ _) fun _ ↦ Within.bind (within_readSocIds _ _) fun _ ↦ ?_
      refine Within.bind (within_skipWhitespace _ _ _) fun _ ↦ ?_
      refine Within.bind (within_byteAt _) fun _ ↦ Within.ite (Within.pure _) ?_
      exact Within.bind (within_add _ _) fun _ ↦ ih _
    · exact Within.pure _

theorem within_parseConfig (fuel json jsonlen : ℕ) :
    Within (OnParser R) (parseConfig fuel json jsonlen) := by
  refine Within.bind (within_getWhitespaceLen _ _) fun _ ↦
    Within.bind (within_addInt _ _) fun _ ↦ ?_
  refine Within.bind (within_pointer _ _) fun _ ↦ Within.bind (within_byteAt _) fun _ ↦ ?_
  refine Within.ite (Within.pure _) (Within.bind (within_pointer _ _) fun _ ↦ ?_)
  refine Within.bind (within_sub _ _) fun _ ↦ Within.bind ?_ fun _ ↦ ?_
  · exact Within.bind (within_byteAt _) fun _ ↦
      Within.ite (Within.pure _) (within_parseConfigItemLoop _ _ _ _)
  refine Within.bind (within_addInt _ _) fun _ ↦ Within.bind (within_pointer _ _) fun _ ↦ ?_
  refine Within.bind (within_sub _ _) fun _ ↦ Within.bind (within_getWhitespaceLen _ _) fun _ ↦ ?_
  refine Within.bind (within_addInt _ _) fun _ ↦ Within.bind (within_pointer _ _) fun _ ↦ ?_
  exact Within.bind (within_byteAt _) fun _ ↦ Within.ite (Within.pure _) (within_addInt _ _)

theorem within_matchSocId (p : QshJsonParser) : R p p.matchSocId := by
  unfold QshJsonParser.matchSocId
  split_ifs
  · exact ReadsWithin.soc p _ _
  · exact ReadsWithin.refl p

theorem within_parseMember (fuel key json jsonlen cidx : ℕ) :
    Within (OnParser R) (parseMember fuel key json jsonlen cidx) := by
  refine Within.bind (within_cStringAt _) fun _ ↦ Within.ite ?_ ?_
  · refine Within.bind (within_sub _ _) fun _ ↦ Within.bind (within_parseConfig _ _ _) fun _ ↦ ?_
    refine Within.ite (Within.pure _) (Within.bind (within_add _ _) fun _ ↦ ?_)
    refine Within.bind (Within.modify fun m ↦ within_matchSocId m.parser) fun _ ↦ ?_
    exact Within.bind (Within.read _) fun _ ↦ Within.ite (Within.pure _) (Within.pure _)
  · refine Within.bind (within_sub _ _) fun _ ↦ Within.bind ?_ fun len ↦ ?_
    · exact within_parseGroupWith (within_parseGroupLoop fuel) _ _ _
    cases len with
    | none => exact Within.pure _
    | some len => exact Within.bind (within_add _ _) fun _ ↦ Within.pure _

theorem within_parseFileLoop (fuel json jsonlen cidx : ℕ) :
    Within (OnParser R) (parseFileLoop fuel json jsonlen cidx) := by
  induction fuel generalizing cidx with
  | zero => exact Within.stop _
  | succ fuel ih =>
    refine Within.bind (within_nextPair _ _ _) fun ⟨c, pair⟩ ↦ ?_
    simp only
    split
    · refine Within.bind (within_add _ _) fun _ ↦
        Within.bind (within_parseMember _ _ _ _ _) fun r ↦ ?_
      cases r with
      | failed => exact Within.pure _
      | skipped => exact Within.pure _
      | read c =>
        refine Within.bind (within_commaWithin _ _ _) fun ⟨more, c⟩ ↦ ?_
        exact Within.ite (ih _) (Within.pure _)
    · exact Within.pure _

theorem within_parseFile (fuel json jsonlen : ℕ) :
    Within (OnParser R) (parseFile fuel json jsonlen) := by
  refine Within.bind (within_getWhitespaceLen _ _) fun _ ↦ Within.ite (Within.pure _) ?_
  refine Within.bind (within_byteAt _) fun _ ↦ Within.ite (Within.pure _) ?_
  exact Within.bind (within_add _ _) fun _ ↦ within_parseFileLoop _ _ _ _

end Functions

/-- A load stays within the relation, if `resetParserState` does and `mIsFileParsed` is of no
consequence. -/
theorem within_loadFile (hreset : ∀ p, R p p.resetParserState)
    (hparsed : ∀ (p : QshJsonParser) (b : Bool), R p { p with mIsFileParsed := b })
    (p : QshJsonParser) (fuel : ℕ) (stale : ℕ → Bytes) (file : FileOutcome) :
    R p (p.loadFile fuel stale file).parser := by
  cases file with
  | content c =>
    have hrun := within_parseFile (R := R) fuel 0 (c.length % 2 ^ 32)
      (Machine.start p.resetParserState c stale)
    simp only [QshJsonParser.loadFile]
    generalize parseFile fuel 0 (c.length % 2 ^ 32) (Machine.start p.resetParserState c stale) = x
      at hrun ⊢
    have hread : R p x.2.parser := ReadsWithin.trans (hreset p) hrun
    rcases x with ⟨stop | ⟨ret, cursor⟩, m⟩
    · exact hread
    · dsimp only
      split_ifs
      · exact ReadsWithin.trans hread (hparsed m.parser true)
      · exact hread
  | _ => exact hreset p

end SensingHub.Json
