import Mathlib.Tactic.Cases
import Mathlib.Tactic.SplitIfs
import NexTerminal.Tunnel.Socks5

namespace NexTerminal.Socks5

theorem gather_of_le {count : Nat} {ending : StreamEnd} {buf : Bytes} {chunks : List Bytes}
    (short : buf.length < count) (enough : count ≤ (buf ++ chunks.flatten).length) :
    ∃ later, gather count ending buf chunks = .ok ((buf ++ chunks.flatten).take count, later) ∧
      later.flatten = (buf ++ chunks.flatten).drop count := by
  induction chunks generalizing buf with
  | nil =>
    simp only [List.flatten_nil, List.append_nil] at enough
    omega
  | cons chunk later ih =>
    rw [gather, List.flatten_cons, ← List.append_assoc]
    rw [List.flatten_cons, ← List.append_assoc] at enough
    by_cases full : count ≤ (buf ++ chunk).length
    · rw [if_pos full, List.take_append_of_le_length full, List.drop_append_of_le_length full]
      by_cases more : count < (buf ++ chunk).length
      · rw [if_pos more]
        exact ⟨_, rfl, by simp⟩
      · have all : (buf ++ chunk).length = count := by omega
        rw [if_neg more, ← all, List.take_length, List.drop_length]
        exact ⟨later, rfl, by simp⟩
    · rw [if_neg full]
      exact ih (by omega) enough

variable {chunks : List Bytes}

theorem gather_of_lt {count : Nat} {ending : StreamEnd} {buf : Bytes} (few : (buf ++ chunks.flatten).length < count) :
    gather count ending buf chunks = .error ending.error := by
  induction chunks generalizing buf with
  | nil => rfl
  | cons chunk later ih =>
    rw [List.flatten_cons, ← List.append_assoc] at few
    rw [gather, if_neg (by rw [List.length_append] at few; omega)]
    exact ih few

/-- On every socket whose events carry the bytes, the action settles so, whatever the cuts. -/
def Settles {α : Type} (action : Handshake α) (bytes written : Bytes) (ok : α → Bytes → Bytes → Prop)
    (failed : Bytes → Bool → Prop) : Prop :=
  ∀ socket : Socket, socket.incoming.flatten = bytes → socket.written = written → socket.ended = false →
    match action socket with
    | .ok value after => ok value after.incoming.flatten after.written ∧ after.ended = false ∧
        after.ending = socket.ending
    | .error _ after => failed after.written after.ended

section
variable {α β : Type} {bytes written : Bytes} {ok : α → Bytes → Bytes → Prop}
  {failed : Bytes → Bool → Prop}

theorem settles_pure {value : α} (holds : ok value bytes written) : Settles (pure value) bytes written ok failed := by
  rintro socket rfl rfl stays
  exact ⟨holds, stays, rfl⟩

theorem settles_bind {first : Handshake β} {next : β → Handshake α}
    (both : Settles first bytes written (fun value rest written =>
      Settles (next value) rest written ok failed) failed) :
    Settles (first >>= next) bytes written ok failed := by
  intro socket carried pre stays
  have head := both socket carried pre stays
  cases run : first socket with
  | ok value after =>
    have bound : (first >>= next) socket = next value after := by
      simp [bind, EStateM.bind, run]
    rw [run] at head
    obtain ⟨then_, open_, ending⟩ := head
    have tail := then_ after rfl rfl open_
    rw [bound]
    rw [ending] at tail
    exact tail
  | error error after =>
    have bound : (first >>= next) socket = .error error after := by
      simp [bind, EStateM.bind, run]
    rw [run] at head
    rw [bound]
    exact head

theorem Settles.mono {action : Handshake α} {ok' : α → Bytes → Bytes → Prop}
    (settled : Settles action bytes written ok failed)
    (weaker : ∀ value rest after, ok value rest after → ok' value rest after) :
    Settles action bytes written ok' failed := by
  intro socket carried pre stays
  have outcome := settled socket carried pre stays
  cases run : action socket with
  | ok value after =>
    rw [run] at outcome
    exact ⟨weaker _ _ _ outcome.1, outcome.2⟩
  | error error after =>
    rw [run] at outcome
    exact outcome

theorem settles_readBytes {count : Nat} {ok : Bytes → Bytes → Bytes → Prop} (positive : 0 < count)
    (enough : ∀ got rest, bytes = got ++ rest → got.length = count → ok got rest written)
    (few : bytes.length < count → failed written false) : Settles (readBytes count) bytes written ok failed := by
  rintro socket rfl rfl stays
  unfold readBytes
  by_cases short : socket.incoming.flatten.length < count
  · rw [gather_of_lt (by simpa using short)]
    rw [stays]
    exact few short
  · obtain ⟨later, gathered, left⟩ := @gather_of_le count socket.ending [] socket.incoming positive
      (by simpa using short)
    rw [List.nil_append] at gathered left
    rw [gathered]
    dsimp only
    rw [left]
    refine ⟨enough _ _ (List.take_append_drop count _).symm ?_, stays, rfl⟩
    rw [List.length_take]
    omega

theorem settles_write {reply : Bytes} {ok : Unit → Bytes → Bytes → Prop}
    (holds : ok () bytes (written ++ reply)) : Settles (write reply) bytes written ok failed := by
  rintro socket rfl rfl stays
  exact ⟨holds, stays, rfl⟩

theorem settles_refuse {reply : Bytes} {error : HandshakeError} (holds : failed (written ++ reply) true) :
    Settles (refuse reply error) bytes written ok failed := by
  rintro socket rfl rfl -
  exact holds

end

theorem greeting_parts (version count : UInt8) (offered rest : Bytes) (len : offered.length = count.toNat) :
    nMethods (version :: count :: (offered ++ rest)) = count.toNat ∧
      methods (version :: count :: (offered ++ rest)) = offered ∧
      afterGreeting (version :: count :: (offered ++ rest)) = rest := by
  have count_ : nMethods (version :: count :: (offered ++ rest)) = count.toNat := rfl
  refine ⟨count_, ?_, ?_⟩
  · rw [methods, count_, ← len]
    exact List.take_left
  · rw [afterGreeting, count_, ← len, Nat.add_comm]
    exact List.drop_left

theorem four_of_length {got : Bytes} (len : got.length = 4) : ∃ a b c d, got = [a, b, c, d] := by
  match got, len with
  | [a, b, c, d], _ => exact ⟨a, b, c, d, rfl⟩

def Refused (stream written : Bytes) (ended : Bool) : Prop :=
  written = replies stream ∧ ended = (firstViolated stream).isSome

theorem refused_early {stream : Bytes} (few : stream.length < 2) : Refused stream [] false := by
  have short : stream.drop (2 + nMethods stream) = [] := List.drop_eq_nil_of_le (by omega)
  have after : afterGreeting stream = [] := short
  have undecided : ¬ 2 ≤ stream.length := by omega
  have undecided' : ¬ 2 + nMethods stream ≤ stream.length := by omega
  simp [Refused, replies, greeted, firstViolated, rules, Rule.decided, undecided, undecided', after]

variable {rest : Bytes} {count : UInt8}

theorem refused_version {version : UInt8} (wrong : version ≠ SOCKS5_VERSION) :
    Refused (version :: count :: rest) (buildGreetingReply AUTH_NO_ACCEPTABLE) true := by
  simp [Refused, replies, greeted, firstViolated, rules, Rule.decided, Rule.violated, wrong, Rule.reply]

theorem refused_noMethods (zero : count = 0) :
    Refused (SOCKS5_VERSION :: count :: rest) (buildGreetingReply AUTH_NO_ACCEPTABLE) true := by
  subst zero
  simp [Refused, replies, greeted, firstViolated, rules, Rule.decided, Rule.violated, nMethods, Rule.reply]

theorem refused_noAuth {offered : Bytes} (len : offered.length = count.toNat) (some_ : count ≠ 0)
    (lacks : AUTH_NO_AUTH ∉ offered) :
    Refused (SOCKS5_VERSION :: count :: (offered ++ rest)) (buildGreetingReply AUTH_NO_ACCEPTABLE) true := by
  obtain ⟨num, mem, -⟩ := greeting_parts SOCKS5_VERSION count offered rest len
  have positive : count.toNat ≠ 0 := fun zero => some_ (UInt8.toNat_inj.mp zero)
  have come : 2 + count.toNat ≤ offered.length + rest.length + 1 + 1 := by omega
  simp [Refused, replies, greeted, firstViolated, rules, Rule.decided, Rule.violated, num, mem,
    Rule.reply, positive, lacks, come]

theorem refused_methods (some_ : count ≠ 0) (few : rest.length < count.toNat) :
    Refused (SOCKS5_VERSION :: count :: rest) [] false := by
  have num : nMethods (SOCKS5_VERSION :: count :: rest) = count.toNat := rfl
  have positive : count.toNat ≠ 0 := fun zero => some_ (UInt8.toNat_inj.mp zero)
  have undecided : ¬ 2 + count.toNat ≤ rest.length + 1 + 1 := by omega
  have after : afterGreeting (SOCKS5_VERSION :: count :: rest) = [] := by
    exact List.drop_eq_nil_of_le (by simp only [List.length_cons]; omega)
  simp [Refused, replies, greeted, firstViolated, rules, Rule.decided, Rule.violated, num, after,
    positive, undecided]

/-- The stream begins with a greeting that breaks no rule, and the rest comes after it. -/
def Greets (stream rest : Bytes) : Prop :=
  ∃ count offered, stream = SOCKS5_VERSION :: count :: (offered ++ rest) ∧ offered.length = count.toNat ∧
    AUTH_NO_AUTH ∈ offered

theorem settles_greet (stream : Bytes) :
    Settles greet stream [] (fun _ rest written => written = buildGreetingReply AUTH_NO_AUTH ∧ Greets stream rest)
      (Refused stream) := by
  refine settles_bind (settles_readBytes (by decide) ?_ refused_early)
  intro header rest parted two
  obtain ⟨version, count, rfl⟩ := List.length_eq_two.mp two
  have parts : stream = version :: count :: rest := parted
  subst parts
  by_cases wrong : version ≠ SOCKS5_VERSION
  · rw [if_pos (show [version, count][0]! ≠ SOCKS5_VERSION from wrong)]
    exact settles_refuse (refused_version wrong)
  obtain rfl : version = SOCKS5_VERSION := not_not.mp wrong
  by_cases zero : count = 0
  · rw [if_pos (show [SOCKS5_VERSION, count][1]! = 0 from zero)]
    exact settles_refuse (refused_noMethods zero)
  rw [if_neg (show ¬ [SOCKS5_VERSION, count][1]! = 0 from zero)]
  have positive : 0 < count.toNat := Nat.pos_of_ne_zero fun none_ => zero (UInt8.toNat_inj.mp none_)
  refine settles_bind (settles_readBytes positive ?_ ?_)
  · rintro offered - rfl len
    by_cases lacks : AUTH_NO_AUTH ∈ offered
    · rw [if_neg (by simpa using lacks)]
      exact settles_write ⟨rfl, count, offered, rfl, len, lacks⟩
    · rw [if_pos (by simpa using lacks)]
      exact settles_refuse (refused_noAuth len zero lacks)
  · intro few
    exact refused_methods zero few

theorem afterGreeting_of_greets {stream : Bytes} (greets : Greets stream rest) : afterGreeting stream = rest := by
  obtain ⟨count, offered, rfl, len, -⟩ := greets
  exact (greeting_parts SOCKS5_VERSION count offered rest len).2.2

theorem refused_of_greets {stream rest : Bytes} (greets : Greets stream rest) {reply : Bytes} {ended : Bool} :
    Refused stream (buildGreetingReply AUTH_NO_AUTH ++ reply) ended ↔
      let rule := [Rule.requestVersion, .connect, .addressType, .domainNonempty].find? fun rule =>
        rule.decided stream && rule.violated stream
      reply = (rule.map Rule.reply).getD [] ∧ ended = rule.isSome := by
  obtain ⟨count, offered, rfl, len, noAuth⟩ := greets
  obtain ⟨num, mem, -⟩ := greeting_parts SOCKS5_VERSION count offered rest len
  have positive : count.toNat ≠ 0 := by
    rw [← len]
    exact Nat.ne_of_gt (List.length_pos_of_mem noAuth)
  have come : 2 + count.toNat ≤ offered.length + rest.length + 1 + 1 := by omega
  have well : greeted (SOCKS5_VERSION :: count :: (offered ++ rest)) = true := by
    simp [greeted, Rule.decided, Rule.violated, num, mem, positive, noAuth, come]
  have later : firstViolated (SOCKS5_VERSION :: count :: (offered ++ rest)) =
      [Rule.requestVersion, .connect, .addressType, .domainNonempty].find? fun rule =>
        rule.decided (SOCKS5_VERSION :: count :: (offered ++ rest)) &&
          rule.violated (SOCKS5_VERSION :: count :: (offered ++ rest)) := by
    have version : (Rule.version.decided (SOCKS5_VERSION :: count :: (offered ++ rest)) &&
        Rule.version.violated (SOCKS5_VERSION :: count :: (offered ++ rest))) = false := by
      simp [Rule.violated]
    have some_ : (Rule.methodsOffered.decided (SOCKS5_VERSION :: count :: (offered ++ rest)) &&
        Rule.methodsOffered.violated (SOCKS5_VERSION :: count :: (offered ++ rest))) = false := by
      simp [Rule.violated, num, positive]
    have free : (Rule.noAuthOffered.decided (SOCKS5_VERSION :: count :: (offered ++ rest)) &&
        Rule.noAuthOffered.violated (SOCKS5_VERSION :: count :: (offered ++ rest))) = false := by
      simp [Rule.violated, mem, noAuth]
    rw [firstViolated, rules, List.find?_cons_of_neg (by simp [version]), List.find?_cons_of_neg (by simp [some_]),
      List.find?_cons_of_neg (by simp [free])]
  rw [Refused, replies, well, later, if_pos rfl, List.append_cancel_left_eq]

section
variable {stream rest : Bytes}

theorem refused_header (greets : Greets stream rest) (few : rest.length < 4) :
    Refused stream (buildGreetingReply AUTH_NO_AUTH) false := by
  have after := afterGreeting_of_greets greets
  have undecided : ¬ 4 ≤ rest.length := by omega
  have undecided' : ¬ 5 ≤ rest.length := by omega
  have settled := @refused_of_greets stream rest greets [] false
  rw [List.append_nil] at settled
  simp [settled, Rule.decided, after, undecided, undecided']

variable {reserved : UInt8}

theorem refused_requestVersion {version cmd atyp : UInt8}
    (greets : Greets stream (version :: cmd :: reserved :: atyp :: rest)) (wrong : version ≠ SOCKS5_VERSION) :
    Refused stream (buildGreetingReply AUTH_NO_AUTH ++ buildSocks5Reply REP_GENERAL_FAILURE) true := by
  have after := afterGreeting_of_greets greets
  simp [refused_of_greets greets, Rule.decided, Rule.violated, after, wrong, Rule.reply]

theorem refused_connect {cmd atyp : UInt8}
    (greets : Greets stream (SOCKS5_VERSION :: cmd :: reserved :: atyp :: rest)) (wrong : cmd ≠ CMD_CONNECT) :
    Refused stream (buildGreetingReply AUTH_NO_AUTH ++ buildSocks5Reply REP_COMMAND_NOT_SUPPORTED) true := by
  have after := afterGreeting_of_greets greets
  simp [refused_of_greets greets, Rule.decided, Rule.violated, after, wrong, Rule.reply]

theorem refused_addressType {atyp : UInt8}
    (greets : Greets stream (SOCKS5_VERSION :: CMD_CONNECT :: reserved :: atyp :: rest))
    (wrong : atyp ∉ [ATYP_IPV4, ATYP_DOMAIN, ATYP_IPV6]) :
    Refused stream (buildGreetingReply AUTH_NO_AUTH ++ buildSocks5Reply REP_ATYP_NOT_SUPPORTED) true := by
  have after := afterGreeting_of_greets greets
  obtain ⟨notV4, notDomain, notV6⟩ : atyp ≠ ATYP_IPV4 ∧ atyp ≠ ATYP_DOMAIN ∧
    atyp ≠ ATYP_IPV6 := by simpa using wrong
  simp [refused_of_greets greets, Rule.decided, Rule.violated, after, notV4, notDomain, notV6, Rule.reply]

theorem refused_emptyDomain
    (greets : Greets stream (SOCKS5_VERSION :: CMD_CONNECT :: reserved :: ATYP_DOMAIN :: 0 :: rest)) :
    Refused stream (buildGreetingReply AUTH_NO_AUTH ++ buildSocks5Reply REP_GENERAL_FAILURE) true := by
  have after := afterGreeting_of_greets greets
  simp [refused_of_greets greets, Rule.decided, Rule.violated, after, Rule.reply]

theorem refused_midway {atyp : UInt8}
    (greets : Greets stream (SOCKS5_VERSION :: CMD_CONNECT :: reserved :: atyp :: rest))
    (known : atyp ∈ [ATYP_IPV4, ATYP_DOMAIN, ATYP_IPV6]) (ne : atyp = ATYP_DOMAIN → rest.head? ≠ some 0) :
    Refused stream (buildGreetingReply AUTH_NO_AUTH) false := by
  have after := afterGreeting_of_greets greets
  have settled := @refused_of_greets stream _ greets [] false
  rw [List.append_nil] at settled
  have version : (Rule.requestVersion.decided stream && Rule.requestVersion.violated stream) = false := by
    simp [Rule.violated, after]
  have connect : (Rule.connect.decided stream && Rule.connect.violated stream) = false := by
    simp [Rule.violated, after]
  have type_ : (Rule.addressType.decided stream && Rule.addressType.violated stream) = false := by
    have mem : [ATYP_IPV4, ATYP_DOMAIN, ATYP_IPV6].contains atyp = true := by simpa using known
    rw [Rule.violated, after, show (SOCKS5_VERSION :: CMD_CONNECT :: reserved :: atyp :: rest)[3]! = atyp from rfl, mem]
    exact Bool.and_false _
  have named : (Rule.domainNonempty.decided stream && Rule.domainNonempty.violated stream) = false := by
    rw [Rule.decided, Rule.violated, after]
    cases rest with
    | nil => simp
    | cons len rest => simpa using fun same => by simpa using ne same
  simp [settled, version, connect, type_, named]

end

theorem settles_readAddress {stream : Bytes} {reserved atyp : UInt8}
    (greets : Greets stream (SOCKS5_VERSION :: CMD_CONNECT :: reserved :: atyp :: rest)) :
    Settles (readAddress atyp) rest (buildGreetingReply AUTH_NO_AUTH)
      (fun text left written => written = buildGreetingReply AUTH_NO_AUTH ∧
        ∃ addr : Address, addr.atyp = atyp ∧ text = addr.text ∧ rest = addr.encode ++ left)
      (Refused stream) := by
  unfold readAddress
  by_cases v4 : atyp = ATYP_IPV4
  · rw [if_pos v4]
    refine settles_bind (settles_readBytes (by decide) ?_ ?_)
    · rintro bytes - rfl len
      exact settles_pure ⟨rfl, .ipv4 bytes len, v4.symm, rfl, rfl⟩
    · exact fun _ => refused_midway greets (by simp [v4]) (fun domain => by rw [v4] at domain; cases domain)
  rw [if_neg v4]
  by_cases domain : atyp = ATYP_DOMAIN
  · subst domain
    refine settles_bind (settles_readBytes (by decide) ?_ ?_)
    · rintro header after rfl one
      obtain ⟨count, rfl⟩ := List.length_eq_one_iff.mp one
      by_cases zero : count = 0
      · subst zero
        exact settles_refuse (refused_emptyDomain greets)
      rw [if_neg (show ¬ [count][0]! = 0 from zero)]
      have positive : 0 < count.toNat := Nat.pos_of_ne_zero fun none_ => zero (UInt8.toNat_inj.mp none_)
      refine settles_bind (settles_readBytes positive ?_ ?_)
      · rintro name - rfl len
        have small := count.toNat_lt
        refine settles_pure ⟨rfl, .domain name ?_ (by rw [len]; exact Nat.le_of_lt_succ small), rfl, rfl, ?_⟩
        · rintro rfl
          exact (Nat.ne_of_lt positive) len
        · have same : UInt8.ofNat name.length = count := by
            rw [len]
            exact UInt8.ofNat_toNat
          rw [Address.encode, same]
          rfl
      · exact fun _ => refused_midway greets (by simp) (fun _ => by simpa using zero)
    · intro few
      obtain rfl : rest = [] := List.length_eq_zero_iff.mp (by omega)
      exact refused_midway greets (by simp) (fun _ => by simp)
  rw [if_neg domain]
  by_cases v6 : atyp = ATYP_IPV6
  · rw [if_pos v6]
    refine settles_bind (settles_readBytes (by decide) ?_ ?_)
    · rintro bytes - rfl len
      exact settles_pure ⟨rfl, .ipv6 bytes len, v6.symm, rfl, rfl⟩
    · exact fun _ => refused_midway greets (by simp [v6]) (fun named => absurd named domain)
  · rw [if_neg v6]
    exact settles_refuse (refused_addressType greets (by simp [v4, domain, v6]))

theorem Address.atyp_known (addr : Address) : addr.atyp ∈ [ATYP_IPV4, ATYP_DOMAIN, ATYP_IPV6] := by
  cases addr <;> simp [Address.atyp]

theorem Address.head_encode (addr : Address) (left : Bytes) (domain : addr.atyp = ATYP_DOMAIN) :
    (addr.encode ++ left).head? ≠ some 0 := by
  cases addr with
  | ipv4 => exact absurd domain (by simp [Address.atyp, ATYP_IPV4, ATYP_DOMAIN])
  | ipv6 => exact absurd domain (by simp [Address.atyp, ATYP_IPV6, ATYP_DOMAIN])
  | domain name ne len =>
    intro zero
    have length_zero : UInt8.ofNat name.length = 0 := Option.some.inj zero
    have count := congrArg UInt8.toNat length_zero
    rw [UInt8.toNat_ofNat', Nat.mod_eq_of_lt (by omega)] at count
    exact ne (List.length_eq_zero_iff.mp count)

theorem settles_readRequest {stream : Bytes} (greets : Greets stream rest) :
    Settles readRequest rest (buildGreetingReply AUTH_NO_AUTH)
      (fun target left written => written = buildGreetingReply AUTH_NO_AUTH ∧
        ∃ reserved, ∃ addr : Address, ∃ high low, rest = SOCKS5_VERSION :: CMD_CONNECT :: reserved :: addr.atyp ::
            (addr.encode ++ high :: low :: left) ∧
          target = { destAddr := addr.text, destPort := high.toNat * 256 + low.toNat })
      (Refused stream) := by
  refine settles_bind (settles_readBytes (by decide) ?_ (refused_header greets))
  intro header after parted four
  obtain ⟨version, cmd, reserved, atyp, rfl⟩ := four_of_length four
  have parts : rest = version :: cmd :: reserved :: atyp :: after := parted
  subst parts
  by_cases wrong : version ≠ SOCKS5_VERSION
  · rw [if_pos (show [version, cmd, reserved, atyp][0]! ≠ SOCKS5_VERSION from wrong)]
    exact settles_refuse (refused_requestVersion greets wrong)
  obtain rfl : version = SOCKS5_VERSION := not_not.mp wrong
  by_cases other : cmd ≠ CMD_CONNECT
  · rw [if_pos (show [SOCKS5_VERSION, cmd, reserved, atyp][1]! ≠ CMD_CONNECT from other)]
    exact settles_refuse (refused_connect greets other)
  obtain rfl : cmd = CMD_CONNECT := not_not.mp other
  refine settles_bind ((settles_readAddress greets).mono ?_)
  rintro _ left _ ⟨rfl, addr, rfl, rfl, rfl⟩
  refine settles_bind (settles_readBytes (by decide) ?_ ?_)
  · rintro bytes - rfl two
    obtain ⟨high, low, rfl⟩ := List.length_eq_two.mp two
    exact settles_pure ⟨rfl, reserved, addr, high, low, rfl, rfl⟩
  · exact fun _ => refused_midway greets addr.atyp_known (addr.head_encode left)

theorem settles_handshake (stream : Bytes) :
    Settles handleSocks5Handshake stream []
      (fun target rest written => written = buildGreetingReply AUTH_NO_AUTH ∧
        ∃ req : Request, stream = req.encode ++ rest ∧ target = req.target)
      (Refused stream) := by
  refine settles_bind ((settles_greet stream).mono ?_)
  rintro _ rest _ ⟨rfl, greets⟩
  refine (settles_readRequest greets).mono ?_
  rintro _ left _ ⟨rfl, reserved, addr, high, low, rfl, rfl⟩
  obtain ⟨count, offered, rfl, len, noAuth⟩ := greets
  have small := count.toNat_lt
  refine ⟨rfl, ⟨offered, noAuth, by rw [len]; exact Nat.le_of_lt_succ small, reserved, addr, high,
    low⟩, ?_, rfl⟩
  have same : UInt8.ofNat offered.length = count := by
    rw [len]
    exact UInt8.ofNat_toNat
  simp [Request.encode, Request.greeting, same]

theorem Address.eq_of_encode {addr other : Address} {rest' : Bytes} (type_ : addr.atyp = other.atyp)
    (same : addr.encode ++ rest = other.encode ++ rest') : addr = other ∧ rest = rest' := by
  cases addr with
  | ipv4 bytes len =>
    cases other with
    | ipv4 bytes' length' =>
      obtain ⟨rfl, rfl⟩ := List.append_inj same (len.trans length'.symm)
      exact ⟨rfl, rfl⟩
    | domain | ipv6 => exact absurd type_ (by simp [atyp, ATYP_IPV4, ATYP_DOMAIN, ATYP_IPV6])
  | domain name ne len =>
    cases other with
    | domain name' nonempty' length' =>
      simp only [encode, List.cons_append, List.cons.injEq] at same
      have count := congrArg UInt8.toNat same.1
      rw [UInt8.toNat_ofNat', UInt8.toNat_ofNat', Nat.mod_eq_of_lt (by omega), Nat.mod_eq_of_lt (by omega)] at count
      obtain ⟨rfl, rfl⟩ := List.append_inj same.2 count
      exact ⟨rfl, rfl⟩
    | ipv4 | ipv6 => exact absurd type_ (by simp [atyp, ATYP_IPV4, ATYP_DOMAIN, ATYP_IPV6])
  | ipv6 bytes len =>
    cases other with
    | ipv6 bytes' length' =>
      obtain ⟨rfl, rfl⟩ := List.append_inj same (len.trans length'.symm)
      exact ⟨rfl, rfl⟩
    | ipv4 | domain => exact absurd type_ (by simp [atyp, ATYP_IPV4, ATYP_DOMAIN, ATYP_IPV6])

theorem Request.eq_of_encode {req other : Request} {rest' : Bytes}
    (same : req.encode ++ rest = other.encode ++ rest') : req = other ∧ rest = rest' := by
  obtain ⟨methods, noAuth, len, reserved, addr, high, low⟩ := req
  obtain ⟨methods', noAuth', length', reserved', address', high', low'⟩ := other
  simp only [encode, greeting, List.append_assoc, List.cons_append, List.cons.injEq, true_and] at same
  have count := congrArg UInt8.toNat same.1
  rw [UInt8.toNat_ofNat', UInt8.toNat_ofNat', Nat.mod_eq_of_lt (by omega), Nat.mod_eq_of_lt (by omega)] at count
  obtain ⟨rfl, header⟩ := List.append_inj same.2 count
  simp only [List.cons.injEq, true_and] at header
  obtain ⟨rfl, type_, more⟩ := header
  obtain ⟨rfl, ports⟩ := Address.eq_of_encode type_ more
  obtain ⟨rfl, rfl, rfl⟩ := ports
  exact ⟨rfl, rfl⟩

theorem readNumber_toDigits {base : Nat} (two : 1 < base)
    (digits : ∀ d, d < base → digitOf base (Nat.digitChar d) = some d) (n : Nat) :
    readNumber base (Nat.toDigits base n) = some n := by
  have ne : Nat.toDigits base n ≠ [] := List.ne_nil_of_length_pos Nat.length_toDigits_pos
  have folded : (Nat.toDigits base n).foldlM (fun n c => (digitOf base c).map (base * n + ·)) 0 = some n := by
    clear ne
    induction n using Nat.strongRecOn with
    | ind n ih =>
      rw [Nat.toDigits_eq_if two]
      by_cases small : n < base
      · rw [if_pos small]
        simp [digits n small]
      · rw [if_neg small, List.foldlM_append, ih (n / base) (Nat.div_lt_self (by omega) two)]
        simp [digits (n % base) (Nat.mod_lt n (by omega)), Nat.div_add_mod]
  rw [readNumber]
  · exact folded
  · exact ne

theorem readGroups_intercalate {base : Nat} {sep : Char} (two : 1 < base)
    (digits : ∀ d, d < base → digitOf base (Nat.digitChar d) = some d)
    (apart : ∀ n, sep ∉ Nat.toDigits base n) (groups : List Nat) (ne : groups ≠ []) :
    readGroups base sep ([sep].intercalate (groups.map (Nat.toDigits base))) = groups.map some := by
  rw [readGroups, List.splitOn_intercalate, List.map_map]
  · exact List.map_congr_left fun n _ => readNumber_toDigits two digits n
  · intro group mem
    obtain ⟨n, -, rfl⟩ := List.mem_map.mp mem
    exact apart n
  · simpa using ne

theorem not_mem_toDigits_ten (n : Nat) : '.' ∉ Nat.toDigits 10 n := fun mem =>
  absurd (Nat.isDigit_of_mem_toDigits (by decide) (by decide) mem) (by decide)

theorem not_mem_toDigits_sixteen (n : Nat) : ':' ∉ Nat.toDigits 16 n := by
  induction n using Nat.strongRecOn with
  | ind n ih =>
    rw [Nat.toDigits_eq_if (by decide)]
    by_cases small : n < 16
    · rw [if_pos small]
      simp
    · rw [if_neg small, List.mem_append, not_or]
      exact ⟨ih (n / 16) (Nat.div_lt_self (by omega) (by decide)), by simp⟩

theorem denotes_ipv4 (bytes : Bytes) (len : bytes.length = 4) : Denotes (ipv4Text bytes) (.ipv4 bytes len) := by
  obtain ⟨a, b, c, d, rfl⟩ := four_of_length len
  exact readGroups_intercalate (by decide) (by decide) not_mem_toDigits_ten [a.toNat, b.toNat, c.toNat, d.toNat]
    (by simp)

theorem denotes_ipv6 (bytes : Bytes) (len : bytes.length = 16) :
    Denotes (ipv6Text bytes) (.ipv6 bytes len) := by
  have read := @readGroups_intercalate 16 ':' (by decide) (by decide) not_mem_toDigits_sixteen
    ([0, 2, 4, 6, 8, 10, 12, 14].map (readUInt16BE bytes)) (by simp)
  exact read

theorem toNat_asciiChar (byte : UInt8) : (Char.ofNat (byte &&& 0x7f).toNat).toNat = byte.toNat % 128 := by
  have low : (byte &&& 0x7f).toNat = byte.toNat % 128 := by
    exact Nat.and_two_pow_sub_one_eq_mod byte.toNat 7
  have ascii : ∀ n < 128, (Char.ofNat n).toNat = n := by decide
  rw [low, ascii _ (by omega)]

theorem denotes_domain {name : Bytes} {ne : name ≠ []} {len : name.length ≤ 255} :
    Denotes (asciiText name) (.domain name ne len) ↔ ∀ byte ∈ name, byte.toNat < 128 := by
  rw [Denotes, asciiText, List.map_map, List.map_inj_left]
  refine forall₂_congr fun byte _ => ?_
  rw [Function.comp_apply, toNat_asciiChar]
  omega

def Address.NotAscii (address : Address) : Prop :=
  address.atyp = ATYP_DOMAIN ∧ ∃ byte ∈ address.bytes, 128 ≤ byte.toNat

theorem denotes_text_iff (addr : Address) : Denotes addr.text addr ↔ ¬addr.NotAscii := by
  cases addr with
  | ipv4 bytes len =>
    simpa [Address.text, Address.NotAscii, Address.atyp, ATYP_IPV4, ATYP_DOMAIN] using denotes_ipv4 bytes len
  | ipv6 bytes len =>
    simpa [Address.text, Address.NotAscii, Address.atyp, ATYP_IPV6, ATYP_DOMAIN] using denotes_ipv6 bytes len
  | domain name ne len =>
    rw [Address.text, denotes_domain]
    simp [Address.NotAscii, Address.atyp, Address.bytes]

def Socket.accepted (chunks : List Bytes) (ending : StreamEnd) : Socket := { incoming := chunks, ending }

/-- The handshake resolves on the requests alone, to what they say; where it fails, it replies to the first rule
broken. -/
structure Understood (chunks : List Bytes) (ending : StreamEnd) : Prop where
  resolves : (∃ target socket, handleSocks5Handshake (.accepted chunks ending) = .ok target socket) ↔
    ∃ (request : Request) (rest : Bytes), chunks.flatten = request.encode ++ rest
  target : ∀ target socket, handleSocks5Handshake (.accepted chunks ending) = .ok target socket →
    ∀ (request : Request) (rest : Bytes), chunks.flatten = request.encode ++ rest →
      Denotes target.destAddr request.address ∧ target.destPort = request.port ∧
        socket.incoming.flatten = rest ∧ socket.ending = ending ∧
        socket.written = buildGreetingReply AUTH_NO_AUTH ∧ socket.ended = false
  refuses : ∀ error socket, handleSocks5Handshake (.accepted chunks ending) = .error error socket →
    socket.written = replies chunks.flatten ∧ socket.ended = (firstViolated chunks.flatten).isSome

section
variable {chunks : List Bytes} {ending : StreamEnd} {target : Socks5Target} {socket : Socket} {error : HandshakeError}

theorem resolved (run : handleSocks5Handshake (.accepted chunks ending) = .ok target socket) :
    (socket.written = buildGreetingReply AUTH_NO_AUTH ∧ ∃ req : Request,
      chunks.flatten = req.encode ++ socket.incoming.flatten ∧ target = req.target) ∧
    socket.ended = false ∧ socket.ending = ending := by
  have settled := settles_handshake chunks.flatten (.accepted chunks ending) rfl rfl rfl
  rw [run] at settled
  exact settled

theorem rejected (run : handleSocks5Handshake (.accepted chunks ending) = .error error socket) :
    Refused chunks.flatten socket.written socket.ended := by
  have settled := settles_handshake chunks.flatten (.accepted chunks ending) rfl rfl rfl
  rw [run] at settled
  exact settled

end

theorem settles_readBytes_append {α : Type} {next : Bytes → Handshake α} {count : Nat} {written : Bytes}
    (got rest : Bytes) {ok : α → Bytes → Bytes → Prop} {failed : Bytes → Bool → Prop}
    (len : got.length = count) (positive : 0 < count)
    (then_ : Settles (next got) rest written ok failed) :
    Settles (readBytes count >>= next) (got ++ rest) written ok failed := by
  refine settles_bind (settles_readBytes positive ?_ ?_)
  · intro first left same count_
    obtain ⟨rfl, rfl⟩ := List.append_inj same (len.trans count_.symm)
    exact then_
  · intro few
    rw [List.length_append] at few
    omega

theorem settles_greeting (req : Request) (rest : Bytes) :
    Settles greet (req.greeting ++ rest) [] (fun _ left _ => left = rest) (fun _ _ => False) := by
  have count : (UInt8.ofNat req.methods.length).toNat = req.methods.length := by
    have small := req.length
    rw [UInt8.toNat_ofNat', Nat.mod_eq_of_lt (by omega)]
  have positive : 0 < req.methods.length := List.length_pos_of_mem req.noAuth
  have some_ : UInt8.ofNat req.methods.length ≠ 0 := fun zero => by
    rw [zero] at count
    exact (Nat.ne_of_lt positive) count
  have free : req.methods.contains AUTH_NO_AUTH = true := by simpa using req.noAuth
  refine settles_readBytes_append [SOCKS5_VERSION, _] _ rfl (by decide) ?_
  rw [if_neg (show ¬ [SOCKS5_VERSION, UInt8.ofNat req.methods.length][0]! ≠ SOCKS5_VERSION from not_not.mpr rfl),
    if_neg (show ¬ [SOCKS5_VERSION, UInt8.ofNat req.methods.length][1]! = 0 from some_)]
  refine settles_readBytes_append req.methods _ count.symm (by rw [← count] at positive; exact positive) ?_
  rw [if_neg (by rw [free]; decide)]
  exact settles_write rfl

theorem settles_address (addr : Address) (rest written : Bytes) :
    Settles (readAddress addr.atyp) (addr.encode ++ rest) written (fun _ left _ => left = rest)
      (fun _ _ => False) := by
  cases addr with
  | ipv4 bytes length | ipv6 bytes length =>
    exact settles_readBytes_append bytes _ length (by decide) (settles_pure rfl)
  | domain name ne length =>
    have count : (UInt8.ofNat name.length).toNat = name.length := by
      rw [UInt8.toNat_ofNat', Nat.mod_eq_of_lt (by omega)]
    have positive : 0 < name.length := List.length_pos_of_ne_nil ne
    have some_ : UInt8.ofNat name.length ≠ 0 := fun zero => by
      rw [zero] at count
      exact (Nat.ne_of_lt positive) count
    refine settles_readBytes_append [UInt8.ofNat name.length] _ rfl (by decide) ?_
    rw [if_neg (show ¬ [UInt8.ofNat name.length][0]! = 0 from some_)]
    exact settles_readBytes_append name _ count.symm (by rw [← count] at positive; exact positive) (settles_pure rfl)

theorem settles_request (req : Request) (rest : Bytes) :
    Settles handleSocks5Handshake (req.encode ++ rest) [] (fun _ _ _ => True) (fun _ _ => False) := by
  rw [Request.encode, List.append_assoc]
  refine settles_bind ((settles_greeting req _).mono ?_)
  rintro _ _ written rfl
  refine settles_readBytes_append [SOCKS5_VERSION, CMD_CONNECT, req.reserved, req.address.atyp]
    ((req.address.encode ++ [req.portHigh, req.portLow]) ++ rest) rfl (by decide) ?_
  rw [List.append_assoc]
  refine settles_bind ((settles_address req.address _ written).mono ?_)
  rintro _ _ - rfl
  exact settles_readBytes_append [req.portHigh, req.portLow] _ rfl (by decide) (settles_pure trivial)

theorem resolves_of_request (ending : StreamEnd) {req : Request}
    (carried : chunks.flatten = req.encode ++ rest) :
    ∃ target socket, handleSocks5Handshake (.accepted chunks ending) = .ok target socket := by
  have settled := settles_request req rest (.accepted chunks ending) carried rfl rfl
  cases run : handleSocks5Handshake (.accepted chunks ending) with
  | ok target socket => exact ⟨target, socket, rfl⟩
  | error error socket =>
    rw [run] at settled
    exact settled.elim

theorem not_understood {ending : StreamEnd} {req : Request} (carried : chunks.flatten = req.encode ++ rest)
    (notAscii : req.address.NotAscii) : ¬Understood chunks ending := by
  intro understood
  obtain ⟨target, socket, run⟩ := resolves_of_request ending carried
  obtain ⟨⟨-, read, same, rfl⟩, -, -⟩ := resolved run
  obtain ⟨rfl, -⟩ := Request.eq_of_encode (same.symm.trans carried)
  have denotes := (understood.target _ _ run read _ same).1
  exact (denotes_text_iff read.address).mp denotes notAscii

/-- A handshake understands its client unless the client asks for a domain with a byte outside
ASCII. -/
theorem understood_iff (chunks : List Bytes) (ending : StreamEnd) : Understood chunks ending ↔
    ¬∃ (request : Request) (rest : Bytes), chunks.flatten = request.encode ++ rest ∧ request.address.NotAscii := by
  constructor
  · rintro understood ⟨request, rest, carried, notAscii⟩
    exact not_understood carried notAscii understood
  · intro ascii
    refine ⟨⟨?_, ?_⟩, ?_, fun error socket run => rejected run⟩
    · rintro ⟨target, socket, run⟩
      obtain ⟨⟨-, request, same, -⟩, -⟩ := resolved run
      exact ⟨request, _, same⟩
    · rintro ⟨request, rest, carried⟩
      exact resolves_of_request ending carried
    · intro target socket run request rest carried
      obtain ⟨⟨replied, read, same, rfl⟩, still, ending_⟩ := resolved run
      obtain ⟨rfl, left⟩ := Request.eq_of_encode (same.symm.trans carried)
      refine ⟨(denotes_text_iff read.address).mpr fun notAscii =>
        ascii ⟨read, rest, carried, notAscii⟩, rfl, left, ending_, replied, still⟩

/-- The domain `é` in one byte: the tunnel goes to `i`. -/
theorem not_understood_latin : ¬∀ chunks ending, Understood chunks ending := by
  intro always
  let request : Request :=
    ⟨[0], by simp [AUTH_NO_AUTH], by simp, 0, .domain [0xe9] (by simp) (by simp), 0, 80⟩
  have carried : [[5, 1, 0], [5, 1, 0, 3, 1, 0xe9, 0, 80]].flatten = request.encode ++ [] := rfl
  have notAscii : request.address.NotAscii := ⟨rfl, 0xe9, List.mem_singleton_self _, by decide⟩
  exact not_understood carried notAscii (always _ .closed)

end NexTerminal.Socks5
