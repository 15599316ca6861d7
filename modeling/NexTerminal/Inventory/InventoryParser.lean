import NexTerminal.Library.Utf16
import NexTerminal.Inventory.FolderPaths

/-! Inventory lists: a CSV export or a plain list of hosts read into sessions
(`utils/inventoryParser.ts`). -/

namespace NexTerminal.Inventory

open Library

structure ImportedSession where
  name : Text
  host : Text
  port : Nat
  username : Text
  folder : Text
  deriving DecidableEq

structure InventoryParseOptions where
  defaultUsername : Option Text := none
  defaultPort : Option Nat := none
  defaultFolder : Option Text := none
  deriving DecidableEq

structure InventoryParseIssue where
  line : Nat
  text : Text
  reason : Text
  deriving DecidableEq

structure InventoryParseResult where
  sessions : List ImportedSession
  skippedCount : Nat
  folders : List Text
  issues : List InventoryParseIssue
  needsDefaultUsername : Bool
  missingUsernameCount : Nat
  truncatedCount : Nat
  deriving DecidableEq

/-- `toLowerCase`, which takes the letters of ASCII as expected. -/
structure LetterCase where
  toLowerCase : Text → Text
  ascii : ∀ text, (∀ c ∈ text, c.toNat < 0x80) → toLowerCase text = text.map Char.toLower

inductive HeaderRole
  | host
  | name
  | username
  | port
  | folder
  deriving DecidableEq

inductive DelimiterKind
  | comma
  | tab
  | ws
  deriving DecidableEq

structure Row where
  line : Nat
  text : Text
  deriving DecidableEq

def MAX_DATA_ROWS : Nat := 5000
def MAX_HOST_LENGTH : Nat := 253
def MAX_NAME_LENGTH : Nat := 128
def ROW_COLLECTION_LIMIT : Nat := MAX_DATA_ROWS + 2

/-- `[A-Za-z0-9._:\-[\]%_]`. -/
def isHostChar (c : Char) : Bool := c.isAlphanum || "._:-[]%_".toList.contains c

/-- `HOST_RE.test(text)`. -/
def matchesHost (text : Text) : Bool := !text.isEmpty && text.all isHostChar

def HEADER_ROLES : List HeaderRole := [.host, .name, .username, .port, .folder]

def HEADER_ALIASES : HeaderRole → List Text
  | .host => ["host", "hostname", "address", "ip", "ipaddress", "mgmtip"].map String.toList
  | .name => ["name", "label", "device", "devicename", "alias"].map String.toList
  | .username => ["user", "username", "login"].map String.toList
  | .port => ["port", "sshport"].map String.toList
  | .folder => ["folder", "group", "site", "location"].map String.toList

/-- `/^\d+$/`. -/
def allDigits (text : Text) : Bool := !text.isEmpty && text.all Char.isDigit

/-- `parseInt(digits, 10)`. -/
def parseDigits (digits : Text) : Nat := digits.foldl (fun value c => value * 10 + (c.toNat - '0'.toNat)) 0

def isPortLike (value : Text) : Bool :=
  let trimmed := trim value
  allDigits trimmed && decide (1 ≤ parseDigits trimmed ∧ parseDigits trimmed ≤ 65535)

/-- The loop of `splitCsvLike`: the fields so far, the current one, and whether it is quoted. -/
def splitCsvFrom (delimiter : Char) : List Text → Text → Bool → Text → List Text
  | fields, current, _, [] => fields ++ [current]
  | fields, current, true, ch :: rest =>
    if ch = '"' then
      match rest with
      | [] => splitCsvFrom delimiter fields current false []
      | next :: rest =>
        if next = '"' then splitCsvFrom delimiter fields (current ++ ['"']) true rest
        else splitCsvFrom delimiter fields current false (next :: rest)
    else splitCsvFrom delimiter fields (current ++ [ch]) true rest
  | fields, current, false, ch :: rest =>
    if ch = '"' ∧ trim current = [] then splitCsvFrom delimiter fields [] true rest
    else if ch = delimiter then splitCsvFrom delimiter (fields ++ [current]) [] false rest
    else splitCsvFrom delimiter fields (current ++ [ch]) false rest

def splitCsvLike (line : Text) (delimiter : Char) : List Text := splitCsvFrom delimiter [] [] false line

def pickDelimiter (lineText : Text) : DelimiterKind :=
  if lineText.contains ',' then .comma
  else if lineText.contains '\t' then .tab
  else .ws

def unescapeQuotes : Text → Text
  | c :: d :: rest => if c = '"' ∧ d = '"' then '"' :: unescapeQuotes rest else c :: unescapeQuotes (d :: rest)
  | text => text

def wrapped (text : Text) : Bool := 2 ≤ text.length && text.head? == some '"' && text.getLast? == some '"'

def cleanField (raw : Text) : Text :=
  let trimmed := trim raw
  if wrapped trimmed then unescapeQuotes (trimmed.drop 1).dropLast else trimmed

/-- `split(/\s{2,}/)`: the fields so far, the current one, and the white space behind it. -/
def splitColumns : List Text → Text → Text → Text → List Text
  | fields, current, run, [] => if 2 ≤ run.length then fields ++ [current, []] else fields ++ [current ++ run]
  | fields, current, run, ch :: rest =>
    if isTrimmed ch then splitColumns fields current (run ++ [ch]) rest
    else if 2 ≤ run.length then splitColumns (fields ++ [current]) [ch] [] rest
    else splitColumns fields (current ++ run ++ [ch]) [] rest

def splitFields (lineText : Text) : DelimiterKind → List Text
  | .ws => splitColumns [] [] [] lineText
  | .tab => lineText.splitOn '\t'
  | .comma => splitCsvLike lineText ','

section
variable (letters : LetterCase)

def normalizeHeaderToken (raw : Text) : Text :=
  (letters.toLowerCase (trim raw)).filter fun c => !(isTrimmed c || c == '_')

abbrev HeaderMap := HeaderRole → Option Nat

structure HeaderDetection where
  map : HeaderMap
  ambiguousSingleColumn : Bool

def roleOf (token : Text) : Option HeaderRole := HEADER_ROLES.find? fun role => (HEADER_ALIASES role).contains token

/-- A column goes to the first role that it names and that has none. -/
def mapColumn (map : HeaderMap) (idx : Nat) (token : Text) : HeaderMap :=
  match HEADER_ROLES.find? fun role => (map role).isNone && (HEADER_ALIASES role).contains token with
  | some found => fun role => if role = found then some idx else map role
  | none => map

def mapColumns (map : HeaderMap) : Nat → List Text → HeaderMap
  | _, [] => map
  | idx, token :: tokens => mapColumns (mapColumn map idx token) (idx + 1) tokens

def looksLikeDataField (field : Text) : Bool :=
  let trimmed := trim field
  trimmed.contains '.' || trimmed.contains '@' || trimmed.contains ':' || allDigits trimmed

def detectHeader (fields : List Text) : Option HeaderDetection :=
  let normalized := fields.map (normalizeHeaderToken letters)
  let matched := normalized.filterMap roleOf
  if !(matched.contains .host) then none
  else if matched.length < 2 && fields.any looksLikeDataField then none
  else some ⟨mapColumns (fun _ => none) 0 normalized, fields.length == 1⟩

end

structure PositionalFields where
  host : Text
  name : Text
  username : Text
  port : Text
  folder : Text
  deriving DecidableEq

def resolvePositional (fields : List Text) : PositionalFields :=
  let field (i : Nat) : Text := fields.getD i []
  if 5 ≤ fields.length then ⟨field 0, field 1, field 2, field 3, field 4⟩
  else if fields.length = 4 then ⟨field 0, field 1, field 2, field 3, []⟩
  else if fields.length = 3 then
    if isPortLike (field 2) then ⟨field 0, field 1, [], field 2, []⟩ else ⟨field 0, field 1, field 2, [], []⟩
  else if fields.length = 2 then
    if isPortLike (field 1) then ⟨field 0, [], [], field 1, []⟩ else ⟨field 0, field 1, [], [], []⟩
  else ⟨field 0, [], [], [], []⟩

def rowFields (headerMap : Option HeaderMap) (fields : List Text) : PositionalFields :=
  match headerMap with
  | some map =>
    let column (role : HeaderRole) : Text := ((map role).map (fields.getD · [])).getD []
    ⟨column .host, column .name, column .username, column .port, column .folder⟩
  | none => resolvePositional fields

structure HostShorthand where
  host : Text
  username : Option Text := none
  port : Option Nat := none
  invalidPortSuffix : Option Text := none
  deriving DecidableEq

def parseEndpoint (username : Option Text) (rest : Text) : HostShorthand :=
  if rest.head? = some '[' then
    if !rest.contains ']' then { host := [], username }
    else
      let host := (rest.takeWhile (· ≠ ']')).drop 1
      let remainder := (rest.dropWhile (· ≠ ']')).drop 1
      if remainder = [] then { host, username }
      else if remainder.head? = some ':' then
        let portPart := remainder.drop 1
        if isPortLike portPart then { host, username, port := some (parseDigits (trim portPart)) }
        else { host, username, invalidPortSuffix := some portPart }
      else { host, username, invalidPortSuffix := some remainder }
  else
    -- the last colon, and what is on either side of it
    let portPart := (rest.reverse.takeWhile (· ≠ ':')).reverse
    let hostPart := rest.take (rest.length - portPart.length - 1)
    if rest.contains ':' && !hostPart.isEmpty && !hostPart.contains ':' then
      if isPortLike portPart then { host := hostPart, username, port := some (parseDigits (trim portPart)) }
      else { host := hostPart, username, invalidPortSuffix := some portPart }
    else { host := rest, username }

def parseHostShorthand (raw : Text) : HostShorthand :=
  let user := raw.takeWhile (· ≠ '@')
  if raw.contains '@' && !user.isEmpty then parseEndpoint (some user) ((raw.dropWhile (· ≠ '@')).drop 1)
  else parseEndpoint none raw

/-- `/^\d{1,3}(\.\d{1,3}){3}$/`. -/
def isDottedQuad (host : Text) : Bool :=
  let parts := host.splitOn '.'
  parts.length == 4 && parts.all fun part => allDigits part && part.length ≤ 3

def firstDnsLabel (host : Text) : Text := if isDottedQuad host then host else host.takeWhile (· ≠ '.')

def joinFolderSegments (folderBefore : Option Text) (rowFolder : Text) : Text :=
  let first := (folderBefore.map trim).getD []
  let second := trim rowFolder
  joinPath ([first, second].filter fun segment => !segment.isEmpty)

def number (n : Nat) : Text := Nat.toDigits 10 n

def reasonFor (message : String) (text : Text) : Text := message.toList ++ ['"'] ++ text ++ ['"']

/-- What a row has once nothing is wrong with it: the session, and whether it named a user. -/
structure Resolved where
  session : ImportedSession
  hadExplicitUsername : Bool
  deriving DecidableEq

/-- A row up to the test for duplicates; the error is the issue's reason. -/
def resolveRow (options : InventoryParseOptions) (headerMap : Option HeaderMap) (row : Row) : Except Text Resolved :=
  let fields := (splitFields row.text (pickDelimiter row.text)).map cleanField
  let raw := rowFields headerMap fields
  let shorthand := parseHostShorthand (trim raw.host)
  match shorthand.invalidPortSuffix with
  | some suffix => .error (reasonFor "invalid port " suffix)
  | none =>
    let host := shorthand.host
    if host = [] then .error (reasonFor "invalid host " (trim raw.host))
    else if utf16Length host > MAX_HOST_LENGTH then
      .error ("host exceeds ".toList ++ number MAX_HOST_LENGTH ++ " characters".toList)
    else if !matchesHost host then .error (reasonFor "invalid host " (trim raw.host))
    else
      let explicitPort := trim raw.port
      if explicitPort ≠ [] ∧ isPortLike explicitPort = false then .error (reasonFor "invalid port " explicitPort)
      else
        let port :=
          if explicitPort ≠ [] then parseDigits explicitPort
          else shorthand.port.getD (options.defaultPort.getD 22)
        let explicitUsername := trim raw.username
        let hadExplicitUsername := explicitUsername ≠ [] || shorthand.username.isSome
        let username :=
          if explicitUsername ≠ [] then explicitUsername
          else shorthand.username.getD (options.defaultUsername.getD [])
        let name := if trim raw.name ≠ [] then trim raw.name else firstDnsLabel host
        if utf16Length name > MAX_NAME_LENGTH then
          .error ("name exceeds ".toList ++ number MAX_NAME_LENGTH ++ " characters".toList)
        else
          let folderJoined := joinFolderSegments options.defaultFolder raw.folder
          if folderJoined = [] then .ok ⟨⟨name, host, port, username, []⟩, hadExplicitUsername⟩
          else
            match normalizeFolderPath folderJoined with
            | none => .error (reasonFor "invalid folder " folderJoined)
            | some folder => .ok ⟨⟨name, host, port, username, folder⟩, hadExplicitUsername⟩

/-- The line breaks of other systems as `\n`. -/
def unifyBreaks : Text → Text
  | c :: d :: rest =>
    if c = '\r' then if d = '\n' then '\n' :: unifyBreaks rest else '\n' :: unifyBreaks (d :: rest)
    else c :: unifyBreaks (d :: rest)
  | [c] => if c = '\r' then ['\n'] else [c]
  | [] => []

def byteOrderMark : Char := Char.ofNat 0xFEFF

def cleanText (text : Text) : Text := unifyBreaks (if text.head? = some byteOrderMark then text.drop 1 else text)

def isDataLine (trimmed : Text) : Bool := !trimmed.isEmpty && trimmed.head? != some '#'

/-- The loop over the lines: the rows it keeps, and how many lines count. -/
def collectRows : Nat → List Text → List Row × Nat → List Row × Nat
  | _, [], collected => collected
  | i, rawLine :: rawLines, (rows, totalNonBlankLines) =>
    let trimmed := trim rawLine
    if isDataLine trimmed then
      let rows := if rows.length < ROW_COLLECTION_LIMIT then rows ++ [⟨i + 1, trimmed⟩] else rows
      collectRows (i + 1) rawLines (rows, totalNonBlankLines + 1)
    else collectRows (i + 1) rawLines (rows, totalNonBlankLines)

structure Progress where
  sessions : List ImportedSession := []
  issues : List InventoryParseIssue := []
  folderSet : List Text := []
  seen : List (Text × Nat) := []
  skippedCount : Nat := 0
  needsDefaultUsername : Bool := false
  missingUsernameCount : Nat := 0
  deriving DecidableEq

section
variable (letters : LetterCase) (options : InventoryParseOptions)

def sessionKey (session : ImportedSession) : Text :=
  letters.toLowerCase session.host ++ ['|'] ++ number session.port ++ ['|'] ++ session.username

def Progress.skip (progress : Progress) (row : Row) (reason : Text) : Progress :=
  { progress with
    issues := progress.issues ++ [⟨row.line, row.text, reason⟩]
    skippedCount := progress.skippedCount + 1 }

def processRow (headerMap : Option HeaderMap) (progress : Progress) (row : Row) : Progress :=
  match resolveRow options headerMap row with
  | .error reason => progress.skip row reason
  | .ok resolved =>
    let key := sessionKey letters resolved.session
    match progress.seen.lookup key with
    | some duplicateOfLine => progress.skip row ("duplicate of line ".toList ++ number duplicateOfLine)
    | none =>
      let folder := resolved.session.folder
      { progress with
        seen := (key, row.line) :: progress.seen
        needsDefaultUsername := progress.needsDefaultUsername || !resolved.hadExplicitUsername
        missingUsernameCount := progress.missingUsernameCount + (if resolved.hadExplicitUsername then 0 else 1)
        folderSet :=
          if folder = [] ∨ progress.folderSet.contains folder then progress.folderSet
            else progress.folderSet ++ [folder]
        sessions := progress.sessions ++ [resolved.session] }

def headerOf (rows : List Row) : Option HeaderDetection :=
  rows.head?.bind fun first =>
    detectHeader letters ((splitFields first.text (pickDelimiter first.text)).map cleanField)

def ambiguousReason (text : Text) : Text :=
  reasonFor "ambiguous header row: " text ++
    (" matches a known host column name and was treated as a header, " ++
      "not a device; add a second column if this is meant to be a real host").toList

def truncatedReason (truncatedCount : Nat) : Text :=
  "input truncated at ".toList ++ number MAX_DATA_ROWS ++ " rows (".toList ++ number truncatedCount ++
    " row(s) ignored)".toList

/-- `[...folderSet].sort()`: by code units. -/
def sortFolders (folders : List Text) : List Text :=
  folders.mergeSort fun a b => decide (encodeUtf16 a ≤ encodeUtf16 b)

def parseInventoryList (text : Text) : InventoryParseResult :=
  let (rows, totalNonBlankLines) := collectRows 0 ((cleanText text).splitOn '\n') ([], 0)
  let detectedHeader := headerOf letters rows
  let dataRows := if detectedHeader.isSome then rows.drop 1 else rows
  let ambiguous := (detectedHeader.map (·.ambiguousSingleColumn)).getD false
  let headerIssues := (rows.take 1).map fun row =>
    (⟨row.line, row.text, ambiguousReason row.text⟩ : InventoryParseIssue)
  let totalDataLineCount := totalNonBlankLines - (if detectedHeader.isSome then 1 else 0)
  let truncatedCount := if totalDataLineCount > MAX_DATA_ROWS then totalDataLineCount - MAX_DATA_ROWS else 0
  let progress := (dataRows.take MAX_DATA_ROWS).foldl
    (processRow letters options (detectedHeader.map (·.map))) { issues := if ambiguous then headerIssues else [] }
  let firstSkippedLine := ((dataRows[MAX_DATA_ROWS]?.or rows.getLast?).map (·.line)).getD 0
  let truncatedIssues : List InventoryParseIssue :=
    if totalDataLineCount > MAX_DATA_ROWS then [⟨firstSkippedLine, [], truncatedReason truncatedCount⟩] else []
  { sessions := progress.sessions
    skippedCount := progress.skippedCount
    folders := sortFolders progress.folderSet
    issues := progress.issues ++ truncatedIssues
    needsDefaultUsername := progress.needsDefaultUsername
    missingUsernameCount := progress.missingUsernameCount
    truncatedCount }

end

def numbered : Nat → List Text → List Row
  | _, [] => []
  | i, rawLine :: rawLines =>
    if isDataLine (trim rawLine) then ⟨i + 1, trim rawLine⟩ :: numbered (i + 1) rawLines
    else numbered (i + 1) rawLines

/-- The lines that are neither blank nor comments, trimmed. -/
def dataLines (text : Text) : List Text := (((cleanText text).splitOn '\n').map trim).filter isDataLine

theorem numbered_texts (i : Nat) (rawLines : List Text) :
    (numbered i rawLines).map Row.text = (rawLines.map trim).filter isDataLine := by
  induction rawLines generalizing i with
  | nil => rfl
  | cons rawLine rawLines ih =>
    rw [numbered, List.map_cons, List.filter_cons]
    split_ifs
    · rw [List.map_cons, ih]
    · exact ih _

theorem collectRows_eq (i : Nat) (rawLines : List Text) {rows : List Row} (total : Nat)
    (room : rows.length ≤ ROW_COLLECTION_LIMIT) :
    collectRows i rawLines (rows, total) =
      (rows ++ (numbered i rawLines).take (ROW_COLLECTION_LIMIT - rows.length),
        total + (numbered i rawLines).length) := by
  induction rawLines generalizing i rows total with
  | nil => simp [collectRows, numbered]
  | cons rawLine rawLines ih =>
    simp only [collectRows, numbered]
    split_ifs with counts more
    · have size : (rows ++ [(⟨i + 1, trim rawLine⟩ : Row)]).length = rows.length + 1 := List.length_append
      rw [ih (i + 1) (total + 1) (by omega), size, List.append_assoc, List.length_cons,
        show ROW_COLLECTION_LIMIT - rows.length = ROW_COLLECTION_LIMIT - (rows.length + 1) + 1 by omega,
        List.take_succ_cons, List.singleton_append, Nat.add_assoc, Nat.add_comm 1]
    · have full : ROW_COLLECTION_LIMIT - rows.length = 0 := by omega
      rw [ih (i + 1) (total + 1) room, full, List.take_zero, List.take_zero, List.length_cons, Nat.add_assoc,
        Nat.add_comm 1]
    · exact ih (i + 1) total room

theorem collectRows_text (text : Text) :
    collectRows 0 ((cleanText text).splitOn '\n') ([], 0) =
      ((numbered 0 ((cleanText text).splitOn '\n')).take ROW_COLLECTION_LIMIT, (dataLines text).length) := by
  rw [collectRows_eq 0 _ 0 (Nat.zero_le _), dataLines, ← numbered_texts 0, List.length_map, Nat.zero_add]
  rfl

variable (letters : LetterCase) (options : InventoryParseOptions)

def detectedHeader (text : Text) : Option HeaderDetection :=
  (dataLines text).head?.bind fun first =>
    detectHeader letters ((splitFields first (pickDelimiter first)).map cleanField)

theorem headerOf_rows (text : Text) :
    headerOf letters ((numbered 0 ((cleanText text).splitOn '\n')).take ROW_COLLECTION_LIMIT) =
      detectedHeader letters text := by
  rw [headerOf, detectedHeader, dataLines, ← numbered_texts 0, List.head?_take, if_neg (by decide), List.head?_map,
    Option.bind_map]
  rfl

structure Accounted (progress : Progress) (processed : Nat) : Prop where
  counted : progress.sessions.length + progress.skippedCount = processed
  keyed : progress.seen.map Prod.fst = (progress.sessions.map (sessionKey letters)).reverse
  distinct : (progress.sessions.map (sessionKey letters)).Nodup

variable {letters options} {progress : Progress} {processed : Nat}

theorem Accounted.skip (accounted : Accounted letters progress processed)
    (row : Row) (reason : Text) : Accounted letters (progress.skip row reason) (processed + 1) where
  counted := by
    have counted := accounted.counted
    simp only [Progress.skip]
    omega
  keyed := accounted.keyed
  distinct := accounted.distinct

theorem Accounted.processRow (accounted : Accounted letters progress processed)
    (headerMap : Option HeaderMap) (row : Row) :
    Accounted letters (processRow letters options headerMap progress row) (processed + 1) := by
  rw [Inventory.processRow]
  split
  · exact accounted.skip row _
  · rename_i resolved _
    dsimp only
    split
    · exact accounted.skip row _
    · rename_i fresh
      have new : sessionKey letters resolved.session ∉ progress.sessions.map (sessionKey letters) := by
        intro mem
        rw [← List.mem_reverse, ← accounted.keyed] at mem
        obtain ⟨⟨key, line⟩, hit, same⟩ := List.mem_map.mp mem
        have missing := List.lookup_eq_none_iff.mp fresh _ hit
        exact absurd (beq_iff_eq.mpr same.symm) (by simpa using missing)
      exact {
        counted := by
          have counted := accounted.counted
          simp only [List.length_append, List.length_singleton]
          omega
        keyed := by
          simp [accounted.keyed]
        distinct := by
          rw [List.map_append]
          exact List.nodup_append.mpr ⟨accounted.distinct, List.nodup_singleton _, fun a pre b last same => by
            rw [List.map_singleton, List.mem_singleton] at last
            exact new (last ▸ same ▸ pre)⟩ }

theorem Accounted.rows (accounted : Accounted letters progress processed)
    (headerMap : Option HeaderMap) (rows : List Row) :
    Accounted letters (rows.foldl (Inventory.processRow letters options headerMap) progress)
      (processed + rows.length) := by
  induction rows generalizing progress processed with
  | nil => exact accounted
  | cons row rows ih =>
    rw [List.length_cons, Nat.add_comm rows.length 1, ← Nat.add_assoc]
    exact ih (accounted.processRow headerMap row)

variable (letters options)

/-- Sessions, skipped rows, truncated rows and the header are all the lines; no two sessions share a key. -/
theorem inventory_accounted (text : Text) :
    let res := parseInventoryList letters options text
    res.sessions.length + res.skippedCount + res.truncatedCount +
        (if (detectedHeader letters text).isSome then 1 else 0) = (dataLines text).length ∧
      (res.sessions.map (sessionKey letters)).Nodup := by
  simp only [parseInventoryList, collectRows_text, headerOf_rows]
  generalize lines : numbered 0 ((cleanText text).splitOn '\n') = all
  have total : (dataLines text).length = all.length := by
    rw [dataLines, ← numbered_texts 0, List.length_map, lines]
  have first : (detectedHeader letters text).isSome = true → 1 ≤ all.length := by
    intro hit
    rw [← total, Nat.one_le_iff_ne_zero]
    intro none_
    rw [detectedHeader, List.eq_nil_of_length_eq_zero none_] at hit
    cases hit
  have accounted (issues : List InventoryParseIssue) (headerMap : Option HeaderMap) (rows : List Row) :
      Accounted letters (rows.foldl (processRow letters options headerMap) { issues }) rows.length := by
    have started : Accounted letters { issues } 0 := ⟨rfl, rfl, List.nodup_nil⟩
    rw [← Nat.zero_add rows.length]
    exact started.rows headerMap rows
  refine ⟨?_, (accounted _ _ _).distinct⟩
  rw [(accounted _ _ _).counted, total, List.length_take]
  have limits : ROW_COLLECTION_LIMIT = 5002 ∧ MAX_DATA_ROWS = 5000 := ⟨rfl, rfl⟩
  by_cases header : (detectedHeader letters text).isSome = true
  · have ne := first header
    rw [if_pos header, if_pos header, List.length_drop, List.length_take]
    split_ifs <;> omega
  · rw [if_neg header, if_neg header, List.length_take]
    split_ifs <;> omega

end NexTerminal.Inventory
