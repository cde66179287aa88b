import LawyerAssistance.FileIngest.PlainText
import LawyerAssistance.PrivacyText.AiInputs
import LawyerAssistance.PrivacyText.Grouping

/-!
# Analyses of a text

`build_analysis` groups the candidates of all detectors, replaces the groups which are settled and
checks the result against the replacements which it recorded. The analysis is accepted only when
the source, with the recorded ranges exchanged, is the output.
-/

namespace LawyerAssistance.PrivacyText

/-- `MAX_FINDINGS`. -/
def maxFindings : Nat := 100000

/-- What the analysis uses besides its own code: the digest, and whether the residual scan of a
result with the values which were replaced finds a risk, or fails. -/
structure Scanner where
  sha256Hex : Octets → String
  residualRisk : Text → List (Text × EntityType × Text) → Except TextError Bool

/-! ## Replacements -/

/-- `apply_replacements`, from a position of the source and what was written before it. -/
def applyReplacementsFrom (text : Text) :
    List Group → Nat → Text → List Replacement → Except TextError (Text × List Replacement)
  | [], cursor, output, replacements => do
      let rest ← presentOr (Text.slice text cursor (Text.byteLength text)) .analysisFailed
      pure (output ++ rest, replacements)
  | group :: groups, cursor, output, replacements => do
      refuseIf (group.start < cursor ∨ group.end < group.start) .analysisFailed
      let before ← presentOr (Text.slice text cursor group.start) .analysisFailed
      let «alias» ← presentOr group.finding.alias .analysisFailed
      let output := output ++ before
      let replacement : Replacement := {
        findingId := group.finding.id
        sourceStart := group.start
        sourceEnd := group.end
        outputStart := Text.byteLength output
        outputEnd := Text.byteLength (output ++ «alias»)
        «alias» := «alias» }
      applyReplacementsFrom text groups group.end (output ++ «alias»)
        (replacements ++ [replacement])

/-- `apply_replacements`. -/
def applyReplacements (text : Text) (groups : List Group) :
    Except TextError (Text × List Replacement) :=
  applyReplacementsFrom text (groups.filter Group.replace) 0 [] []

/-- The finding which a map by identifiers holds: the last one. -/
def findById (findings : List Finding) (id : String) : Option Finding :=
  findings.reverse.find? fun finding => finding.id = id

/-- The loop of `verify_output_replacement_evidence`. -/
def verifyOutputLoop (output : Text) (expected : List Finding) :
    List Replacement → Nat → Nat → List String → Except TextError (List String)
  | [], _, _, seen => pure seen
  | replacement :: rest, previousSourceEnd, previousOutputEnd, seen => do
      refuseIf (replacement.findingId ∈ seen ∨
          replacement.sourceEnd < replacement.sourceStart ∨
          replacement.sourceEnd - replacement.sourceStart = 0 ∨
          replacement.outputStart < previousOutputEnd ∨
          replacement.sourceStart < previousSourceEnd) .evidenceVerificationFailed
      let finding ← presentOr (findById expected replacement.findingId) .evidenceVerificationFailed
      let «alias» ← presentOr finding.alias .evidenceVerificationFailed
      refuseIf («alias» ≠ replacement.alias ∨
          Text.slice output replacement.outputStart replacement.outputEnd ≠
            some replacement.alias) .evidenceVerificationFailed
      verifyOutputLoop output expected rest replacement.sourceEnd replacement.outputEnd
        (replacement.findingId :: seen)

/-- `verify_output_replacement_evidence`. -/
def verifyOutputReplacementEvidence (output : Text) (findings : List Finding)
    (replacements : List Replacement) : Except TextError Unit := do
  refuseIf (maxFindings < findings.length ∨ maxFindings < replacements.length) .tooManyFindings
  let expected := findings.filter fun finding => finding.resolved && !finding.dismissed
  let ids := (expected.map Finding.id).dedup
  refuseIf (ids.length ≠ replacements.length) .evidenceVerificationFailed
  let seen ← verifyOutputLoop output expected replacements 0 0 []
  refuseIf (seen.length ≠ ids.length) .evidenceVerificationFailed

/-- The source with the recorded ranges exchanged, from a position. -/
def rebuildFrom (source : Text) (findings : List Finding) :
    List Replacement → Nat → Text → Except TextError Text
  | [], cursor, rebuilt => do
      let rest ← presentOr (Text.slice source cursor (Text.byteLength source))
        .evidenceVerificationFailed
      pure (rebuilt ++ rest)
  | replacement :: rest, cursor, rebuilt => do
      let finding ← presentOr (findById findings replacement.findingId) .evidenceVerificationFailed
      let value ← presentOr (Text.slice source replacement.sourceStart replacement.sourceEnd)
        .evidenceVerificationFailed
      refuseIf (value ≠ finding.text) .evidenceVerificationFailed
      let before ← presentOr (Text.slice source cursor replacement.sourceStart)
        .evidenceVerificationFailed
      rebuildFrom source findings rest replacement.sourceEnd
        (rebuilt ++ before ++ replacement.alias)

/-- `verify_source_replacement_evidence`. -/
def verifySourceReplacementEvidence (source output : Text) (findings : List Finding)
    (replacements : List Replacement) : Except TextError Unit := do
  let rebuilt ← rebuildFrom source findings replacements 0 []
  refuseIf (rebuilt ≠ output) .evidenceVerificationFailed

/-! ## Results -/

/-- Digits and the letters of hexadecimal numbers. -/
def isLowerHex (character : Char) : Bool :=
  character.isDigit || ('a' ≤ character && character ≤ 'f')

/-- `valid_finding_id`. -/
def validFindingId (value : String) : Bool :=
  value.toList.length = 36 && "fnd_".toList.isPrefixOf value.toList &&
    (value.toList.drop 4).all isLowerHex

/-- `valid_sha256`. -/
def validSha256 (value : String) : Bool := value.toList.length = 64 && value.toList.all isLowerHex

/-- `safe_term`. -/
def safeTerm (value : Text) : Bool :=
  value ≠ [] && Text.byteLength value ≤ 512 && value.all fun character => !Text.isControl character

/-- `validate_alias`. -/
def validateAlias (value : Text) : Except TextError Unit :=
  refuseIf (Text.byteLength value < 4 ∨ 128 < Text.byteLength value ∨ value.head? ≠ some '[' ∨
    value.getLast? ≠ some ']' ∨ Text.contains value "..".toList = true ∨
    value.any Text.isControl = true) .invalidInput

/-- `validate_finding`. -/
def validateFinding (finding : Finding) : Except TextError Unit := do
  let kind ← parseEntityKind finding.kind
  let dismissedFor : Bool :=
    (finding.source = "local_ner" && [.personName, .organizationName, .address].contains kind) ||
      (finding.source = "ai" && kind = .custom)
  refuseIf (validFindingId finding.id = false ∨ safeTerm finding.text = false ∨
      finding.source = "" ∨ 128 < finding.source.utf8ByteSize ∨
      finding.source.toList.any Text.isControl = true ∨
      finding.alias.any (fun value => (validateAlias value).toOption.isNone) = true ∨
      (finding.dismissed = true ∧ (finding.resolved = false ∨ dismissedFor = false)))
    .invalidInput

/-- The values which were replaced, each with its kind and alias. -/
def collectTerms (text : Text) : List Finding → List (Text × EntityType × Text) →
    Except TextError (List (Text × EntityType × Text))
  | [], terms => pure terms
  | finding :: rest, terms => do
      validateFinding finding
      refuseIf (finding.resolved = false) .resultNeedsReview
      if finding.dismissed then collectTerms text rest terms
      else do
        refuseIf (Text.contains text finding.text = true) .residualRisk
        let kind ← parseEntityKind finding.kind
        let «alias» ← presentOr finding.alias .resultNeedsReview
        match terms.lookup finding.text with
        | some existing =>
            refuseIf (existing ≠ (kind, «alias»)) .residualRisk
            collectTerms text rest terms
        | none => collectTerms text rest (terms ++ [(finding.text, kind, «alias»)])

section Scans

variable (scanner : Scanner)

/-- `sha256_hex` of a text. -/
def Scanner.digest (text : Text) : String := scanner.sha256Hex (textBytes text)

/-- `validate_result`. -/
def validateResult (text : Text) (findings : List Finding) : Except TextError Unit := do
  refuseIf (FileIngest.maxTextBytes < Text.byteLength text ∨ '\x00' ∈ text) .invalidInput
  refuseIf (maxFindings < findings.length) .tooManyFindings
  let terms ← collectTerms text findings []
  let risk ← scanner.residualRisk text terms
  refuseIf (risk = true) .residualRisk

/-- `validate_analysis`. -/
def validateAnalysis (analysis : Analysis) : Except TextError Unit := do
  refuseIf (validSha256 analysis.outputSha256 = false ∨ validSha256 analysis.sourceSha256 = false ∨
    scanner.digest analysis.text ≠ analysis.outputSha256) .evidenceVerificationFailed
  verifyOutputReplacementEvidence analysis.text analysis.findings analysis.replacements
  validateResult scanner analysis.text analysis.findings

/-- `verify_analysis_source`. -/
def verifyAnalysisSource (source : Text) (analysis : Analysis) : Except TextError Unit := do
  refuseIf (validSha256 analysis.sourceSha256 = false ∨
    scanner.digest source ≠ analysis.sourceSha256) .evidenceVerificationFailed
  verifyOutputReplacementEvidence analysis.text analysis.findings analysis.replacements
  verifySourceReplacementEvidence source analysis.text analysis.findings analysis.replacements

/-- The groups of an analysis before the repeated names and the overlaps are settled. -/
def groupsOf (text namespaceText : Text) (candidates : List Candidate) (dismissed : List String)
    (ambiguousOrganizations : List Text) : Except TextError (List Group) :=
  candidateGroups scanner.sha256Hex text namespaceText (suppressRedundantLocalNer text candidates)
    dismissed ambiguousOrganizations

/-- The groups as the analysis reports them. -/
def settledGroups (text : Text) (groups : List Group) : List Group :=
  resolveConflictingReplacementOverlaps (markConflictingRepeatedPeople text groups)

/-- `build_analysis`. -/
def buildAnalysis (text namespaceText : Text) (candidates : List Candidate)
    (dismissed : List String) (ambiguousOrganizations : List Text) : Except TextError Analysis := do
  let groups ← groupsOf scanner text namespaceText candidates dismissed ambiguousOrganizations
  let groups := settledGroups text groups
  let (output, replacements) ← applyReplacements text groups
  let analysis : Analysis := {
    text := output
    findings := groups.map Group.finding
    aiFindings := none
    replacements := replacements
    needsReview := false
    sourceSha256 := scanner.digest text
    outputSha256 := scanner.digest output }
  verifyAnalysisSource scanner text analysis
  let needsReview := (analysis.findings.any fun finding => !finding.resolved) ||
    (validateResult scanner analysis.text analysis.findings).toOption.isNone
  if needsReview then pure { analysis with needsReview := true }
  else do
    validateAnalysis scanner analysis
    pure analysis

end Scans

end LawyerAssistance.PrivacyText
