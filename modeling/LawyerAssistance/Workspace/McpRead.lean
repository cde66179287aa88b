import LawyerAssistance.PrivacyText.Analysis
import LawyerAssistance.Redaction.ChunkRanges
import LawyerAssistance.Storage.Partition
import LawyerAssistance.Workspace.InitialMessages

/-!
# Reading a result page by page

`mcp_read` gives a client the text of a ready result in pages. A page starts at the cursor which
the page before returned and ends at a boundary of characters. The workspace may change between two
pages; whatever happens in it, the pages which a client reads are the text.
-/

namespace LawyerAssistance.Workspace

open PrivacyText

/-! ## Pages -/

/-- The most bytes of a page. -/
def maxPageBytes : Nat := 64 * 1024

/-- The value which `mcp_read` returns. -/
structure McpPage where
  resultId : Id
  text : Text
  mimeType : String
  sha256 : String
  nextCursor : Option String
  deriving DecidableEq

/-- The end of a page: a loop steps back to a boundary of characters. -/
def pageEnd (text : Text) (start : Nat) : Nat :=
  Redaction.floorCharBoundary text (start + maxPageBytes)

/-- A page of a result, from a cursor. -/
def resultPage (result : ReadyResult) (cursor : Option String) : Except Error McpPage := do
  let start ← presentOr (Storage.parseU64 (cursor.getD "0")) (.new "invalid_cursor")
  refuseIf (Text.byteLength result.text < start ∨ Text.isCharBoundary result.text start = false)
    (.new "invalid_cursor")
  let stop := pageEnd result.text start
  -- Slicing panics where this fails; `resultPage_of_boundary` shows that it does not.
  let text ← presentOr (Text.slice result.text start stop) (.new "invalid_cursor")
  .ok {
    resultId := result.id
    text := text
    mimeType := "text/plain; charset=utf-8"
    sha256 := result.outputSha256
    nextCursor :=
      if stop < Text.byteLength result.text then some (toString stop) else none }

section Reading

variable (services : Services) (tokenHash : Id → String)

/-- `authenticate_client`, with the token hashes of the clients. -/
def authenticateClient (store : Store) (token : Text) : Except Error McpClient := do
  refuseIf (¬ (32 ≤ Text.byteLength token ∧ Text.byteLength token ≤ 512)) (.new "unauthorized")
  let digest := services.hash (utf8 token)
  presentOr ((store.clients.rows.map Prod.snd).find? fun client =>
    client.enabled && tokenHash client.id = digest) (.new "unauthorized")

/-- `mcp_read` of the source. -/
def mcpRead (now : Nat) (store : Store) (token : Text) (resultId : Id) (cursor : Option String) :
    Except Error McpPage := do
  let client ← authenticateClient services tokenHash store token
  let result ← readResultLocked services now store resultId
  refuseIf (result.groupId ≠ client.groupId) (.new "result_not_found")
  resultPage result cursor

end Reading

/-- The services with the checks of the redaction crate. -/
def Services.checked (services : Services) (scanner : Scanner) : Services :=
  { services with validateAnalysis := PrivacyText.validateAnalysis scanner }

/-! ## Following the cursors -/

/-- A moment at which a client asks for a page. -/
structure McpMoment where
  now : Nat
  store : Store
  token : Text

/-- A result which clients read, over time. -/
structure McpSource where
  services : Services
  scanner : Scanner
  tokenHash : Id → String
  resultId : Id

namespace McpSource

variable (source : McpSource)

/-- What a client is answered. -/
def read (moment : McpMoment) (cursor : Option String) : Except Error McpPage :=
  mcpRead (source.services.checked source.scanner) source.tokenHash moment.now moment.store
    moment.token source.resultId cursor

/-- The client may read the result, which is ready and has a text. -/
def Ready (text : Text) (moment : McpMoment) : Prop :=
  ∃ client result,
    authenticateClient (source.services.checked source.scanner) source.tokenHash moment.store
      moment.token = .ok client ∧
    readResultLocked (source.services.checked source.scanner) moment.now moment.store
      source.resultId = .ok result ∧
    result.groupId = client.groupId ∧ result.text = text

/-- The pages which a client read, each one from the cursor of the page before, and the cursor of
the next page: `none` when the last page had none. -/
inductive Follows (text : Text) : List McpPage → Option (Option String) → Prop
  | start : Follows text [] (some none)
  | page {pages : List McpPage} {cursor : Option String} {moment : McpMoment} {page : McpPage}
      (follows : Follows text pages (some cursor)) (ready : source.Ready text moment)
      (read : source.read moment cursor = .ok page) :
      Follows text (pages ++ [page]) (page.nextCursor.map some)

end McpSource

/-- The text of pages. -/
def pagesText (pages : List McpPage) : Text := pages.flatMap McpPage.text

/-- The position which a cursor names. -/
def cursorPosition (cursor : Option String) : Option Nat := Storage.parseU64 (cursor.getD "0")

/-- A page of a text behind the pages which were read. -/
structure NextPage (text : Text) (pages : List McpPage) (page : McpPage) : Prop where
  slice : Text.slice text (Text.byteLength (pagesText pages))
    (Text.byteLength (pagesText (pages ++ [page]))) = some page.text
  small : Text.byteLength page.text ≤ maxPageBytes
  nonempty : Text.byteLength (pagesText pages) < Text.byteLength text → page.text ≠ []
  next : ∀ cursor, page.nextCursor = some cursor →
    cursorPosition (some cursor) = some (Text.byteLength (pagesText (pages ++ [page]))) ∧
      Text.byteLength (pagesText pages) < Text.byteLength (pagesText (pages ++ [page]))
  last : page.nextCursor = none → pagesText (pages ++ [page]) = text

/-- Pages of a text, and the cursor of the next one. -/
structure ReadSoFar (text : Text) (pages : List McpPage) (next : Option (Option String)) :
    Prop where
  starts : ∃ rest, pagesText pages ++ rest = text
  few : pages.length ≤ Text.byteLength text + 1
  position : ∀ cursor, next = some cursor →
    cursorPosition cursor = some (Text.byteLength (pagesText pages))
  whole : next = none → pagesText pages = text

/-! ## One page -/

section Page

variable {text : Text} {start : Nat} {result : ReadyResult} {cursor : Option String}

/-- A page ends at a boundary within its limit, and behind its start while text remains. -/
theorem pageEnd_spec (boundary : Text.isCharBoundary text start = true)
    (within : start ≤ Text.byteLength text) :
    Text.isCharBoundary text (pageEnd text start) = true ∧ start ≤ pageEnd text start ∧
      pageEnd text start ≤ start + maxPageBytes ∧ pageEnd text start ≤ Text.byteLength text ∧
      (start < Text.byteLength text → start < pageEnd text start) := by
  rw [pageEnd, Redaction.floorCharBoundary]
  have most : start ≤ min (start + maxPageBytes) (Text.byteLength text) :=
    Nat.le_min.mpr ⟨Nat.le_add_right _ _, within⟩
  obtain ⟨isBoundary, below, greatest⟩ := @Redaction.floorBoundary_spec text
    (min (start + maxPageBytes) (Text.byteLength text))
  refine ⟨isBoundary, greatest start boundary most, below.trans (Nat.min_le_left _ _),
    below.trans (Nat.min_le_right _ _), fun remains => ?_⟩
  by_cases short : Text.byteLength text ≤ start + maxPageBytes
  · exact remains.trans_le
      (greatest _ Redaction.isCharBoundary_byteLength (Nat.le_min.mpr ⟨short, Nat.le_refl _⟩))
  · have long := Nat.le_of_not_le short
    obtain ⟨near, isNear, below, close⟩ := Redaction.exists_boundary_near long
    have above := greatest near isNear (Nat.le_min.mpr ⟨below, below.trans long⟩)
    have limit : 3 < maxPageBytes := by decide
    omega

/-- From a cursor at a boundary there is a page: a slice up to its end, and a cursor while text
remains. -/
theorem resultPage_of_boundary (position : cursorPosition cursor = some start)
    (boundary : Text.isCharBoundary result.text start = true)
    (within : start ≤ Text.byteLength result.text) :
    ∃ page, resultPage result cursor = .ok page ∧
      Text.slice result.text start (pageEnd result.text start) = some page.text ∧
      page.nextCursor = if pageEnd result.text start < Text.byteLength result.text then
        some (toString (pageEnd result.text start)) else none := by
  obtain ⟨isBoundary, ordered, -⟩ := pageEnd_spec boundary within
  obtain ⟨part, sliced⟩ := Text.exists_slice boundary isBoundary ordered
  refine ⟨⟨result.id, part, "text/plain; charset=utf-8", result.outputSha256,
    if pageEnd result.text start < Text.byteLength result.text then
      some (toString (pageEnd result.text start)) else none⟩, ?_, sliced, rfl⟩
  refine bind_eq_ok.mpr ⟨start, presentOr_eq_ok.mpr position, ?_⟩
  refine refuseIf_bind_eq_ok.mpr ⟨by simpa [boundary] using within, ?_⟩
  exact bind_eq_ok.mpr ⟨part, presentOr_eq_ok.mpr sliced, rfl⟩

/-- A page of a result is behind the text before its cursor. -/
theorem resultPage_spec {before rest : Text} {page : McpPage}
    (whole : before ++ rest = result.text)
    (position : cursorPosition cursor = some (Text.byteLength before))
    (answered : resultPage result cursor = .ok page) :
    ∃ after, before ++ page.text ++ after = result.text ∧
      Text.byteLength page.text ≤ maxPageBytes ∧ (rest ≠ [] → page.text ≠ []) ∧
      page.nextCursor = if after = [] then none
        else some (toString (Text.byteLength (before ++ page.text))) := by
  have boundary : Text.isCharBoundary result.text (Text.byteLength before) = true :=
    Text.isCharBoundary_eq_true.mpr ⟨before, rest, whole.symm, rfl⟩
  have within : Text.byteLength before ≤ Text.byteLength result.text := by
    rw [← whole, Text.byteLength_append]
    exact Nat.le_add_right _ _
  obtain ⟨other, otherAnswered, sliced, next⟩ := resultPage_of_boundary position boundary within
  obtain rfl : page = other := Except.ok.inj (answered.symm.trans otherAnswered)
  obtain ⟨-, -, limit, -, progress⟩ := pageEnd_spec boundary within
  obtain ⟨before', after, parts, place, stop⟩ := Text.slice_eq_some.mp sliced
  rw [List.append_assoc] at parts
  obtain ⟨rfl, behind⟩ := Text.append_inj_of_byteLength (whole.trans parts) place
  have length : Text.byteLength result.text =
      Text.byteLength before + Text.byteLength page.text + Text.byteLength after := by
    rw [← whole, Text.byteLength_append, behind, Text.byteLength_append, Nat.add_assoc]
  refine ⟨after, by rw [List.append_assoc, ← behind, whole], by omega, fun remains empty => ?_, ?_⟩
  · have positive := Text.byteLength_pos remains
    rw [← whole, Text.byteLength_append, whole] at progress
    rw [empty, Text.byteLength_nil] at stop
    have moved := progress (by omega)
    omega
  · rw [next, stop, length, Text.byteLength_append]
    by_cases ended : after = []
    · rw [if_pos ended, ended, Text.byteLength_nil, Nat.add_zero, if_neg (Nat.lt_irrefl _)]
    · have positive := Text.byteLength_pos ended
      rw [if_neg ended, if_pos (by omega)]

end Page

/-! ## All pages -/

section Pages

variable {source : McpSource} {text : Text} {pages : List McpPage} {page : McpPage}
  {moment : McpMoment} {cursor : Option String} {next : Option (Option String)}

theorem small_of_validateAnalysis {scanner : Scanner} {analysis : Analysis}
    (valid : PrivacyText.validateAnalysis scanner analysis = .ok ()) :
    Text.byteLength analysis.text ≤ FileIngest.maxTextBytes := by
  rw [PrivacyText.validateAnalysis, refuseIf_bind_eq_ok] at valid
  obtain ⟨_, _, _, valid⟩ := And.imp_right bind_eq_ok.mp valid
  rw [PrivacyText.validateResult, refuseIf_bind_eq_ok] at valid
  exact Nat.not_lt.mp fun large => valid.1 (.inl large)

/-- A ready result is small. -/
theorem McpSource.Ready.small (ready : source.Ready text moment) :
    Text.byteLength text ≤ FileIngest.maxTextBytes := by
  obtain ⟨client, result, -, read, -, rfl⟩ := ready
  simp only [readResultLocked, bind_eq_ok, Store.require_eq_ok, refuseIf_eq_ok,
    textResultAs_eq_ok] at read
  obtain ⟨stored, -, _, -, _, -, _, -, _, -, _, -, _, -, _, valid, _, -, same⟩ := read
  obtain rfl := Except.ok.inj same
  exact @small_of_validateAnalysis source.scanner _ valid

theorem McpSource.Ready.read_eq (ready : source.Ready text moment) (cursor : Option String) :
    ∃ result, result.text = text ∧ source.read moment cursor = resultPage result cursor := by
  obtain ⟨client, result, authenticated, read, same, text⟩ := ready
  refine ⟨result, text, ?_⟩
  rw [McpSource.read, mcpRead, authenticated, ok_bind, read, ok_bind, refuseIf,
    if_neg (not_not_intro same)]
  rfl

/-- The page behind the pages which were read. -/
theorem nextPage_of_read (ready : source.Ready text moment)
    (soFar : ReadSoFar text pages (some cursor)) (read : source.read moment cursor = .ok page) :
    NextPage text pages page ∧ ∃ rest, pagesText (pages ++ [page]) ++ rest = text ∧
      page.nextCursor = if rest = [] then none
        else some (toString (Text.byteLength (pagesText (pages ++ [page])))) := by
  obtain ⟨result, rfl, same⟩ := ready.read_eq cursor
  rw [same] at read
  obtain ⟨rest, whole⟩ := soFar.starts
  obtain ⟨after, parts, small, progress, next⟩ :=
    resultPage_spec whole (soFar.position cursor rfl) read
  have joined : pagesText (pages ++ [page]) = pagesText pages ++ page.text := by
    simp [pagesText]
  have total := congrArg Text.byteLength parts
  have bounded := ready.small
  have limit : FileIngest.maxTextBytes < 2 ^ 64 := by decide
  rw [Text.byteLength_append] at total
  rw [← joined] at parts next total
  refine ⟨⟨?_, small, fun remains => progress fun empty => ?_, fun cursor named => ?_,
    fun ended => ?_⟩, after, parts, next⟩
  · refine Text.slice_eq_some.mpr ⟨pagesText pages, after, ?_, rfl, ?_⟩
    · rw [← joined, parts]
    · rw [joined, Text.byteLength_append]
  · rw [← whole, empty, List.append_nil] at remains
    exact Nat.lt_irrefl _ remains
  · rw [next] at named
    split_ifs at named with empty
    cases named
    have positive := Text.byteLength_pos empty
    refine ⟨Storage.parseU64_toString (by omega), ?_⟩
    by_contra stalled
    have same : Text.byteLength page.text = 0 := by
      rw [joined, Text.byteLength_append] at stalled
      omega
    have filled := Text.byteLength_pos (progress fun none => ?_)
    · omega
    · rw [none, List.append_nil] at whole
      rw [joined, whole, Text.byteLength_append] at total
      omega
  · rw [next] at ended
    split_ifs at ended with empty
    rw [← parts, empty, List.append_nil]

/-- The pages which were read are few, start the text, and leave some of it while there is a cursor
of a further page. -/
theorem readSoFar_of_follows (follows : source.Follows text pages next) :
    ReadSoFar text pages next ∧ pages.length ≤ Text.byteLength (pagesText pages) + 1 ∧
      (next ≠ none → pages ≠ [] →
        Text.byteLength (pagesText pages) < Text.byteLength text) := by
  induction follows with
  | start =>
      refine ⟨⟨⟨text, rfl⟩, Nat.zero_le _, fun cursor same => ?_, nofun⟩, Nat.zero_le _,
        fun _ some => absurd rfl some⟩
      cases same
      rfl
  | @page pages cursor moment page _ ready read inductionHypothesis =>
      obtain ⟨soFar, few, remains⟩ := inductionHypothesis
      obtain ⟨nextPage, rest, parts, next⟩ := nextPage_of_read ready soFar read
      have total := congrArg Text.byteLength parts
      rw [Text.byteLength_append] at total
      have joined : Text.byteLength (pagesText (pages ++ [page])) =
          Text.byteLength (pagesText pages) + Text.byteLength page.text := by
        simp [pagesText]
      have fewer : (pages ++ [page]).length ≤
          Text.byteLength (pagesText (pages ++ [page])) + 1 := by
        rw [List.length_append, List.length_singleton, joined]
        by_cases first : pages = []
        · rw [first, List.length_nil]
          omega
        · have positive := Text.byteLength_pos (nextPage.nonempty (remains nofun first))
          omega
      refine ⟨⟨⟨rest, parts⟩, by omega, fun cursor named => ?_, fun ended => ?_⟩, fewer,
        fun named _ => ?_⟩
      · obtain ⟨cursor, returned, rfl⟩ := Option.map_eq_some_iff.mp named
        exact (nextPage.next cursor returned).1
      · exact nextPage.last (Option.map_eq_none_iff.mp ended)
      · have something : rest ≠ [] := fun empty => named (by rw [next, if_pos empty]; rfl)
        have positive := Text.byteLength_pos something
        omega

end Pages

/-- A client which follows the cursors of a ready result reads its text, whatever happens in the
workspace between two pages: what was read starts the text and is all of it when there is no
further cursor, after finitely many pages. While there is a cursor, the client is answered with the
page which it names: a slice of the text within the limit, which is empty only when no text
remains, and the next cursor is its end. -/
theorem mcp_pages_give_the_text (source : McpSource) (text : Text) {pages : List McpPage}
    {next : Option (Option String)} (follows : source.Follows text pages next) :
    ReadSoFar text pages next ∧
      ∀ cursor, next = some cursor → ∀ moment, source.Ready text moment →
        ∃ page, source.read moment cursor = .ok page ∧ NextPage text pages page := by
  have soFar := (readSoFar_of_follows follows).1
  refine ⟨soFar, ?_⟩
  rintro cursor rfl moment ready
  obtain ⟨result, rfl, same⟩ := ready.read_eq cursor
  obtain ⟨rest, whole⟩ := soFar.starts
  have boundary : Text.isCharBoundary result.text (Text.byteLength (pagesText pages)) = true :=
    Text.isCharBoundary_eq_true.mpr ⟨pagesText pages, rest, whole.symm, rfl⟩
  have within : Text.byteLength (pagesText pages) ≤ Text.byteLength result.text := by
    rw [← whole, Text.byteLength_append]
    exact Nat.le_add_right _ _
  obtain ⟨page, answered, -⟩ :=
    resultPage_of_boundary (soFar.position cursor rfl) boundary within
  have read : source.read moment cursor = .ok page := same.trans answered
  exact ⟨page, read, (nextPage_of_read ready soFar read).1⟩

/-- A digest of zeros. -/
def zeroDigest : String := String.ofList (List.replicate 64 '0')

/-- A ready result of two letters, with a client of its group. -/
def readableStore : Store :=
  Store.empty.putMany [
    .group "grp" ⟨"grp", "case", 0, "salt", []⟩,
    .client "cli" ⟨"cli", "grp", true⟩,
    .material "mat" ⟨"mat", "a.txt", "grp", "task", .ready, none, 1, zeroDigest, 2, "txt", none,
      ['h', 'i'], none, some "res", [], 0⟩,
    .result "res" ⟨"res", "mat", "grp", 1, 0, zeroDigest, 2, ['h', 'i'], 1, 10, false, [], [],
      zeroDigest⟩]

/-- The result of the sample, with a digest which is always zero. -/
def readableSource : McpSource where
  services := { plainServices with sha256Hex := fun _ => zeroDigest }
  scanner := ⟨fun _ => zeroDigest, fun _ _ => .ok false⟩
  tokenHash _ := zeroDigest
  resultId := "res"

/-- A moment at which the sample can be read. -/
def readableMoment : McpMoment := ⟨2, readableStore, List.replicate 32 'k'⟩

/-- The only page of the sample is its text. -/
theorem mcp_pages_give_the_text_of_the_sample : ∃ page,
    readableSource.read readableMoment none = .ok page ∧
      ReadSoFar ['h', 'i'] [page] (page.nextCursor.map some) := by
  have ready : readableSource.Ready ['h', 'i'] readableMoment := by
    refine ⟨⟨"cli", "grp", true⟩, ⟨"res", "mat", "grp", 1, 0, zeroDigest, 2, ['h', 'i'], 1, 10,
      false, [], [], zeroDigest⟩, ?_, ?_, rfl, rfl⟩
    · refine refuseIf_bind_eq_ok.mpr ⟨by decide, presentOr_eq_ok.mpr ?_⟩
      decide +kernel
    · rfl
  obtain ⟨page, read, _⟩ :=
    (mcp_pages_give_the_text readableSource ['h', 'i'] .start).2 none rfl readableMoment ready
  have follows := McpSource.Follows.page .start ready read
  exact ⟨page, read, (mcp_pages_give_the_text readableSource ['h', 'i'] follows).1⟩

end LawyerAssistance.Workspace
