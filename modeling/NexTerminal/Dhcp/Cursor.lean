import NexTerminal.Dhcp.Protocol

namespace NexTerminal.Dhcp

open Library

/-- An area after the main one, where the overload option selects it. -/
def furtherArea (selected : Bool) (area : Bytes) (options : Options) : Except DecodeError Options :=
  if selected then parseOptions area options else .ok options

theorem Message.decode_eq (buf : Bytes) :
    Message.decode buf =
      match Message.decodeMain.run buf with
      | .error error => .error error
      | .ok (msg, _) =>
        let overload := (msg.options.u8 optionOverload).getD 0
        (furtherArea (overload &&& 1 ≠ 0) msg.file msg.options
          >>= furtherArea (overload &&& 2 ≠ 0) msg.sname).map
            fun options => { msg with options := options } := by
  unfold Message.decode furtherArea
  cases Message.decodeMain.run buf with
  | error error => rfl
  | ok value =>
    obtain ⟨msg, -⟩ := value
    simp only [ok_bind, decide_eq_true_eq]
    have last (options : Options) :
        (if (msg.options.u8 optionOverload).getD 0 &&& 2 ≠ 0 then do
            let options ← parseOptions msg.sname options
            pure { msg with options := options }
          else pure { msg with options := options }) =
        (if (msg.options.u8 optionOverload).getD 0 &&& 2 ≠ 0 then parseOptions msg.sname options
          else Except.ok options).map fun options => { msg with options := options } := by
      split
      · cases parseOptions msg.sname options <;> rfl
      · rfl
    split
    · cases parseOptions msg.file msg.options with
      | error error => rfl
      | ok options => exact last options
    · exact last msg.options

/-- A reader, with every range that was asked of its buffer so far. -/
structure Cursor where
  buf : Bytes
  pos : Nat := 0
  asked : List (Nat × Nat) := []
deriving DecidableEq

abbrev CursorReader := ExceptT DecodeError (StateM Cursor)

namespace Cursor

def remaining (cursor : Cursor) : Nat := cursor.buf.length - cursor.pos

/-- `<[u8]>::get` of a range. -/
def getRange (buf : Bytes) (start stop : Nat) : Option Bytes :=
  if start ≤ stop ∧ stop ≤ buf.length then some ((buf.drop start).take (stop - start)) else none

/-- Consumes exactly `n` bytes, or fails naming the field that wanted them. -/
def take (n : Nat) (field : String) : CursorReader Bytes := do
  let cursor ← get
  if n > cursor.remaining then throw (.tooShort field n cursor.remaining)
  let stop := cursor.pos + n
  modify fun cursor => { cursor with asked := cursor.asked ++ [(cursor.pos, stop)] }
  match getRange cursor.buf cursor.pos stop with
  | none => throw (.tooShort field n cursor.remaining)
  | some slice =>
    modify fun cursor => { cursor with pos := stop }
    return slice

def u8 (field : String) : CursorReader UInt8 := do
  let bytes ← take 1 field
  return .ofNat (fromBeBytes bytes)

def u16 (field : String) : CursorReader UInt16 := do
  let bytes ← take 2 field
  return .ofNat (fromBeBytes bytes)

def u32 (field : String) : CursorReader UInt32 := do
  let bytes ← take 4 field
  return .ofNat (fromBeBytes bytes)

def ipv4 (field : String) : CursorReader Ipv4Addr := u32 field

/-- The loop of `parse_options`, of as many rounds as it may take. -/
def parseOptions : Nat → Options → CursorReader Options
  | 0, into => return into
  | rounds + 1, into => do
    if (← get).remaining = 0 then return into
    let code ← u8 "option code"
    if code = optionPad then parseOptions rounds into
    else if code = optionEnd then return into
    else
      if (← get).remaining = 0 then throw (.optionMissingLength code)
      let length ← u8 "option length"
      let declared := length.toNat
      let available := (← get).remaining
      if declared > available then throw (.optionTruncated code declared available)
      let value ← take declared "option value"
      parseOptions rounds (into.append code value)

def decodeMain : CursorReader Message := do
  let op ← u8 "op"
  if op ≠ opBootrequest ∧ op ≠ opBootreply then throw (.badOperation op)
  let htype ← u8 "htype"
  let hlen ← u8 "hlen"
  let hops ← u8 "hops"
  let xid ← u32 "xid"
  let secs ← u16 "secs"
  let flags ← u16 "flags"
  let ciaddr ← ipv4 "ciaddr"
  let yiaddr ← ipv4 "yiaddr"
  let siaddr ← ipv4 "siaddr"
  let giaddr ← ipv4 "giaddr"
  if hlen = 0 ∨ hlen.toNat > maxHardwareLen then throw (.badHardwareLength hlen)
  let hardwareField ← take maxHardwareLen "chaddr"
  let sname ← take 64 "sname"
  let file ← take 128 "file"
  let cookie ← take magicCookie.length "magic cookie"
  if cookie ≠ magicCookie then throw (.badMagicCookie cookie)
  let options ← parseOptions ((← get).remaining + 1) ∅
  return {
    op := op, htype := htype, hops := hops, xid := xid, secs := secs, flags := flags
    ciaddr := ciaddr, yiaddr := yiaddr, siaddr := siaddr, giaddr := giaddr
    chaddr := hardwareField.take hlen.toNat, sname := sname, file := file, options := options }

def readOver {α : Type} (reader : CursorReader α) (buf : Bytes) : Except DecodeError α × Cursor :=
  reader.run { buf := buf }

def decodeArea (selected : Bool) (area : Bytes) (options : Options) : Except DecodeError Options × List Cursor :=
  if selected then
    let (parsed, cursor) := readOver (parseOptions (area.length + 1) options) area
    (parsed, [cursor])
  else (.ok options, [])

/-- `Message::decode`, with the readers it used as it left them. -/
def decode (buf : Bytes) : Except DecodeError Message × List Cursor :=
  match readOver decodeMain buf with
  | (.error error, main) => (.error error, [main])
  | (.ok message, main) =>
    let overload := (message.options.u8 optionOverload).getD 0
    match decodeArea (overload &&& 1 ≠ 0) message.file message.options with
    | (.error error, file) => (.error error, main :: file)
    | (.ok options, file) =>
      let (parsed, sname) := decodeArea (overload &&& 2 ≠ 0) message.sname options
      (parsed.map fun options => { message with options := options }, main :: file ++ sname)

structure Within (cursor : Cursor) : Prop where
  pos_le : cursor.pos ≤ cursor.buf.length
  asked_le : ∀ range ∈ cursor.asked, range.1 ≤ range.2 ∧ range.2 ≤ cursor.buf.length

theorem within_start (buf : Bytes) : Within { buf := buf } := ⟨Nat.zero_le _, nofun⟩

/-- A cursor reader that stays in its buffer and comes to what a reader of the bytes left
comes to. -/
def Follows {α : Type} (onCursor : CursorReader α) (reader : Reader α) : Prop :=
  ∀ cursor : Cursor, cursor.Within →
    ((onCursor.run cursor).2.Within ∧ (onCursor.run cursor).2.buf = cursor.buf) ∧
      match reader.run (cursor.buf.drop cursor.pos) with
      | .ok value => (onCursor.run cursor).1 = .ok value.1 ∧
          (onCursor.run cursor).2.buf.drop (onCursor.run cursor).2.pos = value.2
      | .error error => (onCursor.run cursor).1 = .error error

section

variable {α β : Type} {first second : CursorReader α} {first' second' : Reader α}

theorem run_bind (next : α → CursorReader β) (cursor : Cursor) :
    (first >>= next).run cursor = ExceptT.bindCont next (first.run cursor).1 (first.run cursor).2 := rfl

theorem run_bind_ok {next : α → CursorReader β} {cursor after : Cursor} {a : α}
    (ran : first.run cursor = (.ok a, after)) : (first >>= next).run cursor = (next a).run after := by
  rw [run_bind, ran]
  rfl

theorem Follows.pure (a : α) : Follows (pure a) (pure a) :=
  fun _ within => ⟨⟨within, rfl⟩, rfl, rfl⟩

theorem Follows.bind {next : α → CursorReader β} {next' : α → Reader β} (follows : Follows first first')
    (later : ∀ a, Follows (next a) (next' a)) : Follows (first >>= next) (first' >>= next') := by
  intro cursor within
  obtain ⟨⟨inside, same⟩, outcome⟩ := follows cursor within
  rw [run_bind, StateT.run_bind]
  cases given : first'.run (cursor.buf.drop cursor.pos) with
  | error error =>
    rw [given] at outcome
    rw [outcome]
    exact ⟨⟨inside, same⟩, rfl⟩
  | ok value =>
    rw [given] at outcome
    rw [outcome.1]
    have tail := later value.1 (first.run cursor).2 inside
    rw [outcome.2, same] at tail
    exact tail

/-- A cursor reader that stays in its buffer and ends as a reader of the bytes left does. -/
def ComesTo (onCursor : CursorReader α) (reader : Reader α) : Prop :=
  ∀ cursor : Cursor, cursor.Within → (onCursor.run cursor).2.Within ∧
    (onCursor.run cursor).1 = (reader.run (cursor.buf.drop cursor.pos)).map Prod.fst

theorem Follows.next {next : α → CursorReader β} {next' : α → Reader β} (follows : Follows first first')
    (later : ∀ a, ComesTo (next a) (next' a)) : ComesTo (first >>= next) (first' >>= next') := by
  intro cursor within
  obtain ⟨⟨inside, -⟩, outcome⟩ := follows cursor within
  rw [run_bind, StateT.run_bind]
  cases given : first'.run (cursor.buf.drop cursor.pos) with
  | error error =>
    rw [given] at outcome
    rw [outcome]
    exact ⟨inside, rfl⟩
  | ok value =>
    rw [given] at outcome
    rw [outcome.1]
    have tail := later value.1 (first.run cursor).2 inside
    rw [outcome.2] at tail
    exact tail

theorem ComesTo.unless {c : Prop} [Decidable c] (error : DecodeError) {next : Unit → CursorReader β}
    {next' : Unit → Reader β} (passed : ¬ c → ComesTo (next ()) (next' ())) :
    ComesTo (if c then throw error >>= next else next ()) (if c then throw error >>= next' else next' ()) := by
  split
  · exact fun _ within => ⟨within, rfl⟩
  · exact passed ‹_›

end

theorem take_run (n : Nat) (field : String) (cursor : Cursor) :
    (take n field).run cursor =
      if n > cursor.remaining then (.error (.tooShort field n cursor.remaining), cursor)
      else
        let asked := { cursor with asked := cursor.asked ++ [(cursor.pos, cursor.pos + n)] }
        match getRange cursor.buf cursor.pos (cursor.pos + n) with
        | none => (.error (.tooShort field n cursor.remaining), asked)
        | some slice => (.ok slice, { asked with pos := cursor.pos + n }) := by
  change ExceptT.run (if n > cursor.remaining then throw _ else _ : CursorReader Bytes) cursor = _
  split
  · rfl
  · cases hit : getRange cursor.buf cursor.pos (cursor.pos + n) with
    | none | some slice => rfl

theorem follows_take (n : Nat) (field : String) : Follows (take n field) (Reader.take n field) := by
  intro cursor within
  have left : (cursor.buf.drop cursor.pos).length = cursor.remaining := List.length_drop
  have direct : (Reader.take n field).run (cursor.buf.drop cursor.pos) =
      if n > cursor.remaining then .error (.tooShort field n cursor.remaining)
      else .ok ((cursor.buf.drop cursor.pos).take n, (cursor.buf.drop cursor.pos).drop n) := by
    rw [← left]
    rfl
  rw [take_run, direct]
  split
  · exact ⟨⟨within, rfl⟩, rfl⟩
  · rename_i enough
    have inside := within.pos_le
    have bound : cursor.pos + n ≤ cursor.buf.length := by
      unfold remaining at enough
      omega
    have range : getRange cursor.buf cursor.pos (cursor.pos + n) = some ((cursor.buf.drop cursor.pos).take n) := by
      rw [getRange, if_pos ⟨Nat.le_add_right _ _, bound⟩, Nat.add_sub_cancel_left]
    rw [range]
    refine ⟨⟨⟨bound, ?_⟩, rfl⟩, rfl, List.drop_drop.symm⟩
    intro asked mem
    rcases List.mem_append.mp mem with earlier | here
    · exact within.asked_le asked earlier
    · rw [List.mem_singleton.mp here]
      exact ⟨Nat.le_add_right _ _, bound⟩

theorem follows_u8 (field : String) : Follows (u8 field) (Reader.u8 field) :=
  (follows_take 1 field).bind fun _ => .pure _

theorem follows_u16 (field : String) : Follows (u16 field) (Reader.u16 field) :=
  (follows_take 2 field).bind fun _ => .pure _

theorem follows_u32 (field : String) : Follows (u32 field) (Reader.u32 field) :=
  (follows_take 4 field).bind fun _ => .pure _

/-- The cursor after a read that left `rest`. -/
structure After (cursor after : Cursor) (rest : Bytes) : Prop where
  within : after.Within
  buf_eq : after.buf = cursor.buf
  left : after.buf.drop after.pos = rest

theorem Follows.read {α : Type} {onCursor : CursorReader α} {reader : Reader α} {cursor : Cursor}
    {a : α} {rest : Bytes} (follows : Follows onCursor reader) (within : cursor.Within)
    (read : reader.run (cursor.buf.drop cursor.pos) = .ok (a, rest)) :
    ∃ after, onCursor.run cursor = (.ok a, after) ∧ cursor.After after rest := by
  obtain ⟨⟨inside, same⟩, outcome⟩ := follows cursor within
  rw [read] at outcome
  exact ⟨_, Prod.ext outcome.1 rfl, inside, same, outcome.2⟩

theorem u8_cons (field : String) (byte : UInt8) (rest : Bytes) :
    (Reader.u8 field).run (byte :: rest) = .ok (byte, rest) := by
  have whole : (Reader.u8 field).run (byte :: rest) = .ok (.ofNat (fromBeBytes [byte]), rest) := rfl
  rw [whole, fromBeBytes, List.foldl_cons, List.foldl_nil, Nat.zero_mul, Nat.zero_add, UInt8.ofNat_toNat]

/-- With rounds enough, the loop comes to what parsing the bytes left comes to. -/
theorem parseOptions_run (rounds : Nat) (into : Options) (cursor : Cursor) (within : cursor.Within)
    (enough : cursor.remaining < rounds) :
    ((parseOptions rounds into).run cursor).2.Within ∧
      ((parseOptions rounds into).run cursor).1 = Dhcp.parseOptions (cursor.buf.drop cursor.pos) into := by
  have count (cursor : Cursor) : cursor.remaining = (cursor.buf.drop cursor.pos).length := List.length_drop.symm
  induction rounds generalizing into cursor with
  | zero => omega
  | succ rounds ih =>
    rw [count] at enough
    change (ExceptT.run (if cursor.remaining = 0 then _ else _ : CursorReader Options) cursor).2.Within ∧
      (ExceptT.run (if cursor.remaining = 0 then _ else _ : CursorReader Options) cursor).1 = _
    rw [count]
    cases left : cursor.buf.drop cursor.pos with
    | nil =>
      rw [Dhcp.parseOptions.eq_def]
      exact ⟨within, rfl⟩
    | cons code rest =>
      rw [left] at enough
      simp only [List.length_cons, Nat.add_lt_add_iff_right] at enough
      rw [if_neg (by simp), Dhcp.parseOptions.eq_def]
      obtain ⟨after, ran, state⟩ := (follows_u8 "option code").read within (left ▸ u8_cons _ code rest)
      rw [run_bind_ok ran]
      dsimp only
      split
      · rw [← state.left]
        exact ih into after state.within (by rwa [count, state.left])
      · split
        · exact ⟨state.within, rfl⟩
        · change (ExceptT.run (if after.remaining = 0 then _ else _ : CursorReader Options) after).2.Within ∧
            (ExceptT.run (if after.remaining = 0 then _ else _ : CursorReader Options) after).1 = _
          rw [count, state.left]
          cases rest with
          | nil => exact ⟨state.within, rfl⟩
          | cons declared body =>
            rw [if_neg (by simp)]
            obtain ⟨second, ran', state'⟩ :=
              (follows_u8 "option length").read state.within (state.left ▸ u8_cons _ declared body)
            rw [run_bind_ok ran']
            change (ExceptT.run (if declared.toNat > second.remaining then _ else _ : CursorReader Options)
              second).2.Within ∧ (ExceptT.run (if declared.toNat > second.remaining then _ else _ :
                CursorReader Options) second).1 = _
            rw [count, state'.left]
            dsimp only
            split
            · exact ⟨state'.within, rfl⟩
            · rename_i fits
              have taken : (Reader.take declared.toNat "option value").run (second.buf.drop second.pos) =
                  .ok (body.take declared.toNat, body.drop declared.toNat) := by
                rw [state'.left]
                exact if_neg fits
              obtain ⟨third, ran'', state''⟩ := (follows_take _ _).read state'.within taken
              rw [run_bind_ok ran'', ← state''.left]
              refine ih _ third state''.within ?_
              rw [count, state''.left, List.length_drop]
              simp only [List.length_cons] at enough
              omega

theorem run_get_bind {β : Type} (next : Cursor → CursorReader β) (cursor : Cursor) :
    (get >>= next).run cursor = (next cursor).run cursor := rfl

theorem comesTo_options (finish : Options → Message) :
    ComesTo (do
      let opts ← parseOptions ((← get).remaining + 1) ∅
      return finish opts) (do
      let opts ← Dhcp.parseOptions (← get) ∅
      return finish opts) := by
  intro cursor within
  obtain ⟨inside, parsed⟩ := parseOptions_run (cursor.remaining + 1) ∅ cursor within (Nat.lt_succ_self _)
  rw [run_get_bind, run_bind, parsed, StateT.run_bind, StateT.run_get, pure_bind, StateT.run_bind, StateT.run_monadLift]
  cases Dhcp.parseOptions (cursor.buf.drop cursor.pos) ∅ with
  | error error | ok opts => exact ⟨inside, rfl⟩

theorem comesTo_decodeMain : ComesTo decodeMain Message.decodeMain := by
  refine (follows_u8 _).next fun op => .unless _ fun _ => ?_
  refine (follows_u8 _).next fun htype => (follows_u8 _).next fun hlen => (follows_u8 _).next fun hops => ?_
  refine (follows_u32 _).next fun xid => (follows_u16 _).next fun secs => (follows_u16 _).next fun flags => ?_
  refine (follows_u32 _).next fun ciaddr => (follows_u32 _).next fun yiaddr => ?_
  refine (follows_u32 _).next fun siaddr => (follows_u32 _).next fun giaddr => .unless _ fun _ => ?_
  refine (follows_take _ _).next fun hardwareField => (follows_take _ _).next fun sname => ?_
  refine (follows_take _ _).next fun file => (follows_take _ _).next fun cookie => .unless _ fun _ => ?_
  exact comesTo_options _

theorem decodeArea_spec (selected : Bool) (area : Bytes) (opts : Options) :
    (decodeArea selected area opts).1 = furtherArea selected area opts ∧
      ∀ cursor ∈ (decodeArea selected area opts).2, cursor.Within := by
  cases selected with
  | false => exact ⟨rfl, nofun⟩
  | true =>
    obtain ⟨inside, parsed⟩ := parseOptions_run (area.length + 1) opts { buf := area }
      (within_start area) (Nat.lt_succ_self _)
    refine ⟨parsed, fun cursor mem => ?_⟩
    rw [List.mem_singleton.mp mem]
    exact inside

/-- Decoding over a buffer is decoding the bytes left, and asks for nothing beyond the end. -/
theorem decode_spec (buf : Bytes) :
    (decode buf).1 = Message.decode buf ∧ ∀ cursor ∈ (decode buf).2, cursor.Within := by
  obtain ⟨inside, main⟩ := comesTo_decodeMain { buf := buf } (within_start buf)
  rw [List.drop_zero] at main
  rw [Message.decode_eq]
  unfold decode readOver
  generalize decodeMain.run { buf := buf } = ran at main inside
  obtain ⟨res, after⟩ := ran
  subst main
  cases Message.decodeMain.run buf with
  | error error =>
    refine ⟨rfl, fun cursor mem => ?_⟩
    rw [List.mem_singleton.mp mem]
    exact inside
  | ok value =>
    obtain ⟨msg, -⟩ := value
    simp only [Except.map]
    generalize (msg.options.u8 optionOverload).getD 0 = overload
    obtain ⟨file, fileWithin⟩ := decodeArea_spec (overload &&& 1 ≠ 0) msg.file msg.options
    generalize decodeArea (overload &&& 1 ≠ 0) msg.file msg.options = ran at file fileWithin
    obtain ⟨res, files⟩ := ran
    have both : ∀ cursor ∈ after :: files, cursor.Within := by
      intro cursor mem
      rcases List.mem_cons.mp mem with rfl | further
      · exact inside
      · exact fileWithin cursor further
    rw [← file]
    cases res with
    | error error => exact ⟨rfl, both⟩
    | ok opts =>
      obtain ⟨sname, snameWithin⟩ := decodeArea_spec (overload &&& 2 ≠ 0) msg.sname opts
      refine ⟨?_, fun cursor mem => ?_⟩
      · rw [ok_bind, ← sname]
      · rcases List.mem_append.mp mem with first | last
        · exact both cursor first
        · exact snameWithin cursor last

end Cursor

end NexTerminal.Dhcp
