import SensingHub.Json.FileRefinement
import SensingHub.Json.Sections

/-!
# What is read of a file

The parser looks at its own object in one place only: behind a config section, to see whether the
file is for another device. So the text and the id of the device say which calls of
`updateSensingHubInfo` a load makes and how it ends, whatever the tables hold; `outline` finds that
out without a parser object. A load is then the calls made on the object it starts from
(`loadFile_outline`), and two loads of one file differ in nothing but that object.
-/

namespace SensingHub.Json

open CLib (str)

/-- The calls a top-level member makes. -/
def Section.calls : Section → List Call
  | .group calls => calls
  | .config _ => []

/-- The calls made while a file is read, and how the reading ends. -/
structure Outline where
  calls : List Call
  ending : Format.FileEnd

namespace Format

/-- A top-level member, `ids` being those listed before: what it makes and the tokens behind it,
unless the reading of the file ends there. -/
def outlineMember (device : ℤ) (fuel : ℕ) (key : Bytes) (ts : List Token) (ids : List ℤ) :
    Option (Except FileEnd (List Token) × Section) :=
  if key = str "config" then
    (config fuel ts).map fun r ↦
      (match r.ending with
        | .threw e => .error (.threw e)
        | .failed => .error (if Mismatch device (ids ++ r.ids) then .skipped else .brokenConfig)
        | .read rest => if Mismatch device (ids ++ r.ids) then .error .skipped else .ok rest,
        .config r.ids)
  else
    (group fuel key ts).map fun r ↦
      (match r.rest with
        | none => .error .failed
        | some rest => .ok rest,
        .group r.calls)

/-- The loop over the top-level members. -/
def outlineLoop (device : ℤ) : ℕ → List Lexeme → List ℤ → Option Outline
  | 0, _, _ => none
  | fuel + 1, ls, ids =>
    match pair (ls.map Lexeme.token) with
    | some ⟨key, none, rest⟩ =>
      (outlineMember device fuel key rest ids).bind fun
        | (.error e, m) => some ⟨m.calls, e⟩
        | (.ok rest, m) =>
          (fileNext (fun ls ↦ outlineLoop device fuel ls (ids ++ m.ids))
            (fun ls ↦ some ⟨[], .ended ls⟩) (ls.drop (ls.length - rest.length))).map
              fun o ↦ ⟨m.calls ++ o.calls, o.ending⟩
    | _ => some ⟨[], .failed⟩

/-- What is read of a file on a device. -/
def outline (device : ℤ) (fuel : ℕ) (ls : List Lexeme) : Option Outline :=
  match ls with
  | ⟨_, .byte 123⟩ :: ls => outlineLoop device fuel ls []
  | _ => some ⟨[], .failed⟩

end Format

/-! ### Members that are read -/

namespace Format

variable {device : ℤ} {fuel : ℕ} {ls ls' : List Lexeme} {ids : List ℤ}

/-- A member that is read, as `outlineMember` finds it. -/
theorem outlineMember_reads {m : Section} {key : Bytes} {body rest : List Token}
    (h : Reads m (.quoted key :: .byte 58 :: body) rest) (hfuel : body.length ≤ fuel)
    (hids : ¬ Mismatch device ids) :
    outlineMember device fuel key body ids =
      some (if Mismatch device (ids ++ m.ids) then .error .skipped else .ok rest, m) := by
  cases h with
  | group hkey hgroup =>
    obtain ⟨r, hr⟩ := Option.isSome_iff_exists.1 (group_isSome key hfuel)
    rw [outlineMember, if_neg hkey, hr, group_unique hr hgroup]
    rw [Section.ids, List.append_nil, if_neg hids]
    rfl
  | config hconfig =>
    obtain ⟨r, hr⟩ := Option.isSome_iff_exists.1 (config_isSome hfuel)
    rw [outlineMember, if_pos rfl, hr, config_unique hr hconfig]
    rfl

/-- A round of the loop that reads a member. -/
theorem outlineLoop_reads {m : Section}
    (h : Reads m (ls.map Lexeme.token) (ls'.map Lexeme.token)) (hsuffix : ls' <:+ ls)
    (hfuel : ls.length ≤ fuel) (hids : ¬ Mismatch device ids) :
    outlineLoop device (fuel + 1) ls ids =
      if Mismatch device (ids ++ m.ids) then some ⟨m.calls, .skipped⟩
      else (fileNext (fun ls ↦ outlineLoop device fuel ls (ids ++ m.ids))
        (fun ls ↦ some ⟨[], .ended ls⟩) ls').map fun o ↦ ⟨m.calls ++ o.calls, o.ending⟩ := by
  obtain ⟨key, body, hpair, htokens⟩ := pair_of_reads h
  have hlen : body.length ≤ fuel := by
    have := congrArg List.length htokens
    simp only [List.length_map, List.length_cons] at this
    omega
  rw [htokens] at h
  rw [outlineLoop, hpair]
  simp only [outlineMember_reads h hlen hids, Option.bind_some]
  split_ifs
  · rfl
  · simp only [drop_of_suffix hsuffix]

/-- A member that the reading of the file goes on behind. -/
theorem reads_of_outlineMember {ts body rest : List Token} {key : Bytes} {m : Section}
    (hpair : pair ts = some ⟨key, none, body⟩)
    (h : outlineMember device fuel key body ids = some (.ok rest, m))
    (hids : ¬ Mismatch device ids) : Reads m ts rest ∧ ¬ Mismatch device (ids ++ m.ids) := by
  unfold outlineMember at h
  split_ifs at h with hkey
  · subst hkey
    obtain ⟨⟨ids', _ | _ | _⟩, hconfig, heq⟩ := Option.map_eq_some_iff.1 h
    · obtain ⟨body', rfl⟩ := byte_of_config hconfig
      have htokens := tokens_of_pair hpair
      simp only [Prod.mk.injEq] at heq
      obtain ⟨hrest, rfl⟩ := heq
      split_ifs at hrest with hmismatch
      cases hrest
      exact ⟨htokens ▸ Reads.config hconfig, hmismatch⟩
    · cases heq
    · cases heq
  · obtain ⟨⟨calls, _ | next⟩, hgroup, heq⟩ := Option.map_eq_some_iff.1 h
    · cases heq
    · cases heq
      obtain ⟨body', rfl⟩ := byte_of_group hgroup
      have htokens := tokens_of_pair hpair
      refine ⟨htokens ▸ Reads.group hkey hgroup, ?_⟩
      rw [Section.ids, List.append_nil]
      exact hids

end Format

/-! ### Calls and the device's id -/

/-- Two parser objects differ in nothing but what is known of the device. -/
def SameButSoc (p q : QshJsonParser) : Prop :=
  ∃ socIds socId, q = { p with mJsonSocIdList := socIds, mJsonSocId := socId }

theorem SameButSoc.refl (p : QshJsonParser) : SameButSoc p p := ⟨_, _, rfl⟩

theorem SameButSoc.trans {p q r : QshJsonParser} (h₁ : SameButSoc p q) (h₂ : SameButSoc q r) :
    SameButSoc p r := by
  obtain ⟨socIds, socId, rfl⟩ := h₁
  obtain ⟨socIds', socId', rfl⟩ := h₂
  exact ⟨socIds', socId', rfl⟩

theorem SameButSoc.matchSocId (p : QshJsonParser) : SameButSoc p p.matchSocId := by
  unfold QshJsonParser.matchSocId
  split_ifs
  · exact ⟨_, _, rfl⟩
  · exact SameButSoc.refl p

theorem SameButSoc.update {p q : QshJsonParser} (h : SameButSoc p q) (grpName key value : Bytes) :
    SameButSoc (p.updateSensingHubInfo grpName key value)
      (q.updateSensingHubInfo grpName key value) := by
  obtain ⟨socIds, socId, rfl⟩ := h
  refine ⟨socIds, socId, ?_⟩
  simp only [QshJsonParser.updateSensingHubInfo_eq]
  rfl

/-- `s'` has come from `s` by these calls, as far as anything but the device is concerned. -/
structure Made (stale : ℕ → Bytes) (s : Progress) (cs : List Call) (s' : Progress) : Prop where
  parser : SameButSoc (s.calls stale cs).parser s'.parser
  items : s'.items = (s.calls stale cs).items

variable {stale : ℕ → Bytes} {s s' s'' : Progress} {cs cs' : List Call}

theorem Made.calls (stale : ℕ → Bytes) (s : Progress) (cs : List Call) :
    Made stale s cs (s.calls stale cs) :=
  ⟨SameButSoc.refl _, rfl⟩

theorem made_calls (hparser : SameButSoc s.parser s'.parser) (hitems : s'.items = s.items)
    (cs : List Call) : Made stale s cs (s'.calls stale cs) := by
  induction cs generalizing s s' with
  | nil => exact ⟨hparser, hitems⟩
  | cons c cs ih =>
    have hcall : SameButSoc (s.call stale c).parser (s'.call stale c).parser := by
      rw [Progress.call, Progress.call, hitems]
      exact hparser.update _ _ _
    have hcalls : Made stale (s.call stale c) cs ((s'.call stale c).calls stale cs) :=
      ih hcall (congrArg (· + 1) hitems)
    exact ⟨hcalls.parser, hcalls.items⟩

theorem Made.trans (h₁ : Made stale s cs s') (h₂ : Made stale s' cs' s'') :
    Made stale s (cs ++ cs') s'' := by
  have happend : s.calls stale (cs ++ cs') = (s.calls stale cs).calls stale cs' :=
    List.foldl_append ..
  have hmid : Made stale (s.calls stale cs) cs' (s'.calls stale cs') :=
    made_calls h₁.parser h₁.items cs'
  refine ⟨?_, ?_⟩
  · rw [happend]
    exact hmid.parser.trans h₂.parser
  · rw [happend, h₂.items, hmid.items]

theorem Made.config (stale : ℕ → Bytes) (s : Progress) (ids : List ℤ) :
    Made stale s [] (s.addIds ids) ∧ Made stale s [] (s.addIds ids).matchSocId := by
  have hids : SameButSoc s.parser (s.addIds ids).parser := ⟨_, _, rfl⟩
  exact ⟨⟨hids, rfl⟩, ⟨hids.trans (SameButSoc.matchSocId _), rfl⟩⟩

/-! ### A load is the calls of its outline -/

namespace Format

variable {device : ℤ} {fuel : ℕ} {ids : List ℤ}

/-- A top-level member does what its outline says. -/
theorem fileMember_outline (hs : SocState device ids s.parser) (key : Bytes) (ts : List Token) :
    match outlineMember device fuel key ts ids with
    | none => fileMember stale fuel key ts s = none
    | some (r, m) => ∃ s', fileMember stale fuel key ts s = some (r, s') ∧
        Made stale s m.calls s' ∧
        (∀ rest, r = .ok rest → SocState device (ids ++ m.ids) s'.parser) := by
  unfold outlineMember fileMember
  split_ifs with hconfig
  · rcases config fuel ts with _ | ⟨ids', ending⟩
    · rfl
    · have hadd := hs.addIds ids'
      simp only [Option.map_some, hadd.skips_iff]
      cases ending with
      | threw e => exact ⟨_, rfl, (Made.config stale s ids').1, fun _ h ↦ by cases h⟩
      | failed => exact ⟨_, rfl, (Made.config stale s ids').2, fun _ h ↦ by cases h⟩
      | read rest => exact ⟨_, rfl, (Made.config stale s ids').2, fun _ _ ↦ hadd⟩
  · rcases group fuel key ts with _ | ⟨calls, rest⟩
    · rfl
    · refine ⟨_, rfl, Made.calls stale s calls, fun _ _ ↦ ?_⟩
      rw [Section.ids, List.append_nil]
      exact hs.calls stale calls

/-- The loop over the top-level members does what its outline says. -/
theorem fileLoop_outline (hs : SocState device ids s.parser) (ls : List Lexeme) :
    match outlineLoop device fuel ls ids with
    | none => fileLoop stale fuel ls s = none
    | some o => ∃ s', fileLoop stale fuel ls s = some (o.ending, s') ∧
        Made stale s o.calls s' := by
  -- on the rounds left, as both loops are
  induction fuel generalizing ls ids s with
  | zero => rfl
  | succ fuel ih =>
    rw [outlineLoop, fileLoop]
    rcases pair (ls.map Lexeme.token) with _ | ⟨key, _ | value, rest⟩
    · exact ⟨s, rfl, Made.calls stale s []⟩
    · have hmember := @fileMember_outline stale s device fuel ids hs key rest
      simp only
      rcases houtline : outlineMember device fuel key rest ids with _ | ⟨e | next, m⟩
      · rw [houtline] at hmember
        rw [hmember]
        rfl
      · rw [houtline] at hmember
        obtain ⟨s', hread, hmade, -⟩ := hmember
        rw [hread]
        exact ⟨s', rfl, hmade⟩
      · rw [houtline] at hmember
        obtain ⟨s', hread, hmade, hsoc⟩ := hmember
        rw [hread]
        simp only [Option.bind_some]
        generalize ls.drop (ls.length - next.length) = behind
        rcases fileNext_cases (fun ls ↦ outlineLoop device fuel ls (ids ++ m.ids))
          (fun ls ↦ some (Outline.mk [] (.ended ls))) behind with
          ⟨ls', rfl, hnext⟩ | ⟨hcomma, hdone⟩
        · have hrest := ih (hsoc next rfl) ls'
          rw [hnext]
          rcases houtline' : outlineLoop device fuel ls' (ids ++ m.ids) with _ | o
          · rw [houtline'] at hrest
            exact hrest
          · rw [houtline'] at hrest
            obtain ⟨s'', hread', hmade'⟩ := hrest
            exact ⟨s'', hread', hmade.trans hmade'⟩
        · -- no comma: both loops end here
          rw [hdone, fileNext_of_head? hcomma]
          exact ⟨s', rfl, by simpa using hmade⟩
    · exact ⟨s, rfl, Made.calls stale s []⟩

/-- A file does what its outline says, on any object that knows nothing of the device yet. -/
theorem file_outline (hs : SocState device [] s.parser) (ls : List Lexeme) :
    match outline device fuel ls with
    | none => file stale fuel ls s = none
    | some o => ∃ s', file stale fuel ls s = some (o.ending, s') ∧ Made stale s o.calls s' := by
  by_cases hopen : ∃ gap ls', ls = ⟨gap, .byte 123⟩ :: ls'
  · obtain ⟨gap, ls', rfl⟩ := hopen
    exact fileLoop_outline hs ls'
  · have houtline : outline device fuel ls = some ⟨[], .failed⟩ := by
      unfold outline
      split
      · exact absurd ⟨_, _, rfl⟩ hopen
      · rfl
    rw [houtline, file_of_not_open hopen]
    exact ⟨s, rfl, Made.calls stale s []⟩

/-- With enough fuel there is an outline. -/
theorem outline_isSome {ls : List Lexeme} (h : ls.length ≤ fuel) :
    ∃ o, outline device fuel ls = some o := by
  have hs : SocState device [] (QshJsonParser.fresh device) :=
    ⟨rfl, rfl, (if_neg List.not_mem_nil).symm⟩
  have hfile := @file_outline (fun _ ↦ []) ⟨QshJsonParser.fresh device, 0⟩ device fuel hs ls
  have hsome := file_isSome (fun _ ↦ []) ⟨QshJsonParser.fresh device, 0⟩ h
  rcases houtline : outline device fuel ls with _ | o
  · rw [houtline] at hfile
    rw [hfile] at hsome
    cases hsome
  · exact ⟨o, rfl⟩

end Format

theorem mIsFileParsed_calls (stale : ℕ → Bytes) (s : Progress) (cs : List Call) :
    (s.calls stale cs).parser.mIsFileParsed = s.parser.mIsFileParsed := by
  induction cs generalizing s with
  | nil => rfl
  | cons c cs ih =>
    have hcall : (s.call stale c).parser.mIsFileParsed = s.parser.mIsFileParsed := by
      rw [Progress.call, QshJsonParser.updateSensingHubInfo_eq]
    exact (ih (s.call stale c)).trans hcall

/-- **A load is the calls of its outline**: the result follows from how the reading ends, and the
parser object is what the calls make of the one that `resetParserState` leaves, but for what is
known of the device. -/
theorem loadFile_outline {p : QshJsonParser} {c : Bytes} {fuel : ℕ} (hfits : FitsCursors fuel c)
    {o : Outline} (ho : Format.outline p.mDeviceSocId fuel (lex c) = some o)
    (stale : ℕ → Bytes) :
    (p.loadFile fuel stale (.content c)).ret = o.ending.result ∧
      SameButSoc
        { ((Progress.mk p.resetParserState 0).calls stale o.calls).parser with
          mIsFileParsed := p.mIsFileParsed || decide (o.ending.result = .ok 0) }
        (p.loadFile fuel stale (.content c)).parser := by
  have hload := loadFile_run fuel stale c p hfits.1 hfits.2
  have hfile := @Format.file_outline stale ⟨p.resetParserState, 0⟩ p.mDeviceSocId fuel
    (socState_resetParserState p) (lex c)
  rw [ho] at hfile
  obtain ⟨s', hread, hmade⟩ := hfile
  rw [hread] at hload
  obtain ⟨hret, hparser, -⟩ := hload
  refine ⟨hret, ?_⟩
  obtain ⟨socIds, socId, hs'⟩ := hmade.parser
  have hparsed := mIsFileParsed_calls stale ⟨p.resetParserState, 0⟩ o.calls
  refine ⟨socIds, socId, ?_⟩
  rw [hparser, hs']
  split_ifs with hzero
  · simp [hzero]
  · simp only [hzero, decide_false, Bool.or_false]
    rw [show p.mIsFileParsed = p.resetParserState.mIsFileParsed from rfl, ← hparsed]

end SensingHub.Json
