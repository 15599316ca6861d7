import NexTerminal.Telnet.Link

namespace NexTerminal.Telnet

open Library.Announce

theorem asks_append (offers : Bool) (opt : UInt8) (commands more : List Command) :
    asks offers opt (commands ++ more) = asks offers opt commands ++ asks offers opt more :=
  List.filterMap_append

theorem asks_same (cmd : Command) (rest : List Command) :
    asks cmd.offers cmd.option (cmd :: rest) =
      cmd.asked :: asks cmd.offers cmd.option rest := by
  simp [asks]

theorem asks_other {cmd : Command} {offers : Bool} {opt : UInt8}
    (ne : ¬ (cmd.offers = offers ∧ cmd.option = opt)) (rest : List Command) :
    asks offers opt (cmd :: rest) = asks offers opt rest :=
  List.filterMap_cons_none (if_neg ne)

theorem host_iff (offers : Bool) (sender host : End) :
    (if offers then sender else sender.other) = host ↔ offers = (host == sender) := by
  cases offers <;> cases sender <;> cases host <;> decide

theorem exchange_iff (sender : End) (cmd : Command) (exchange : Exchange) :
    (Sent.mk sender cmd).exchange = exchange ↔
      cmd.offers = (exchange.host == sender) ∧ cmd.option = exchange.option := by
  obtain ⟨-, -⟩ := exchange
  simp [Sent.exchange, host_iff]

theorem count_sent (sender : End) (commands : List Command) (exchange : Exchange) :
    (((commands.map (Sent.mk sender)).map Sent.exchange).count exchange) =
      (asks (exchange.host == sender) exchange.option commands).length := by
  induction commands with
  | nil => rfl
  | cons cmd rest ih =>
    rw [List.map_cons, List.map_cons, List.count_cons, ih]
    by_cases same : (Sent.mk sender cmd).exchange = exchange
    · obtain ⟨offers, opt⟩ := (exchange_iff sender cmd exchange).mp same
      rw [← offers, ← opt, asks_same, if_pos (beq_iff_eq.mpr same), List.length_cons]
    · rw [asks_other fun both => same ((exchange_iff sender cmd exchange).mpr both),
        if_neg fun equal => same (beq_iff_eq.mp equal)]
      rfl

namespace Link

def Ready (link : Link) : Prop := ∀ side, (link.party side).scanner.after (link.inbound side) = .data

theorem ready_create (opts : End → TelnetNegotiatorOptions) : (create opts).Ready := fun _ => rfl

variable {link : Link}

theorem ready_send (ready : link.Ready) (side : End) {bytes : List UInt8} (whole : Whole bytes) :
    (link.send side bytes).Ready := by
  intro at_end
  by_cases same : at_end = side
  · subst same
    have inbound : (link.send at_end bytes).inbound at_end = link.inbound at_end ++ bytes := Function.update_self ..
    rw [inbound, Scanner.after_append]
    exact (congrArg (Scanner.after · bytes) (ready at_end)).trans whole
  · have inbound : (link.send side bytes).inbound at_end = link.inbound at_end := Function.update_of_ne same ..
    rw [inbound]
    exact ready at_end

theorem side_send (ready : link.Ready) (at_end : End) (bytes : List UInt8) (offers : Bool) (opt : UInt8) :
    (link.send at_end bytes).side at_end offers opt =
      { held := (link.side at_end offers opt).held
        inbox := (link.side at_end offers opt).inbox ++ asks offers opt (commandsIn bytes) } := by
  have inbound : (link.send at_end bytes).inbound at_end = link.inbound at_end ++ bytes := Function.update_self ..
  simp only [side, inbound, Scanner.commands_append, asks_append]
  rw [show (link.send at_end bytes).party at_end = link.party at_end from rfl, ready at_end]
  rfl

theorem side_send_other (link : Link) {at_end to_end : End} (ne : at_end ≠ to_end) (bytes : List UInt8)
    (offers : Bool) (option : UInt8) :
    (link.send to_end bytes).side at_end offers option = link.side at_end offers option := by
  have inbound : (link.send to_end bytes).inbound at_end = link.inbound at_end := Function.update_of_ne ne ..
  simp only [side, inbound]
  rfl

theorem view_send_silent (ready : link.Ready) (to_end : End) {bytes : List UInt8} (silent : Silent bytes)
    (at_end : End) (offers : Bool) (option : UInt8) :
    (link.send to_end bytes).view at_end offers option = link.view at_end offers option := by
  have unchanged : ∀ at_end offers, (link.send to_end bytes).side at_end offers option =
    link.side at_end offers option := by
    intro at_end offers
    by_cases same : at_end = to_end
    · subst same
      rw [side_send ready, silent.2]
      simp [asks]
    · exact side_send_other link same bytes offers option
  rw [view, unchanged, unchanged, view]

theorem view_send_command (ready : link.Ready) (at_end : End) {cmd : Command} (verb : cmd.Negotiates)
    (offers : Bool) (option : UInt8) : (link.send at_end cmd.bytes).view at_end offers option =
      if cmd.offers = offers ∧ cmd.option = option
        then (link.view at_end offers option).ask cmd.asked else link.view at_end offers option := by
  have near := side_send ready at_end cmd.bytes offers option
  have far := side_send_other link at_end.other_ne cmd.bytes (!offers) option
  rw [(command_bytes verb).2] at near
  rw [view, near, far]
  split_ifs with about
  · obtain ⟨rfl, rfl⟩ := about
    rw [asks_same]
    rfl
  · rw [asks_other about]
    exact congrArg (Dialogue.mk · _) (congrArg (Party.mk _) (List.append_nil _))

theorem dialogue_eq_swap (link : Link) (exchange : Exchange) :
    link.dialogue exchange = (link.view exchange.host.other true exchange.option).swap := by
  rw [view_swap, End.other_other]
  rfl

theorem dialogue_send_command (ready : link.Ready) (side : End) {cmd : Command} (verb : cmd.Negotiates)
    (exchange : Exchange) : ((Sent.mk side.other cmd).exchange = exchange →
      (link.send side cmd.bytes).dialogue exchange = (link.dialogue exchange).ask cmd.asked ∨
        (link.send side cmd.bytes).dialogue exchange = ((link.dialogue exchange).swap.ask cmd.asked).swap) ∧
    ((Sent.mk side.other cmd).exchange ≠ exchange →
      (link.send side cmd.bytes).dialogue exchange = link.dialogue exchange) := by
  simp only [ne_eq, exchange_iff]
  rcases side.eq_or exchange.host with rfl | rfl
  · have own : (exchange.host == exchange.host.other) = false := beq_eq_false_iff_ne.mpr exchange.host.other_ne.symm
    have seen := view_send_command ready exchange.host verb false exchange.option
    rw [own]
    exact ⟨fun about => .inl (seen.trans (if_pos about)), fun ne => seen.trans (if_neg ne)⟩
  · have own : (exchange.host == exchange.host.other.other) = true := by rw [End.other_other, beq_self_eq_true]
    have seen := view_send_command ready exchange.host.other verb true exchange.option
    rw [own, dialogue_eq_swap, dialogue_eq_swap]
    exact ⟨fun about => .inr (congrArg Dialogue.swap (seen.trans (if_pos about))),
      fun ne => congrArg Dialogue.swap (seen.trans (if_neg ne))⟩

/-- The end has taken the first of the bytes on their way to it. -/
def took (stance : Stance) (link : Link) (side : End) (byte : UInt8) (rest : List UInt8) : Link where
  party := Function.update link.party side ((link.party side).receiveByte stance byte).1
  inbound := Function.update link.inbound side rest

variable {stance : Stance} {link : Link} {at_end : End} {byte : UInt8} {rest : List UInt8}

theorem took_party :
    (link.took stance at_end byte rest).party at_end = ((link.party at_end).receiveByte stance byte).1 :=
  Function.update_self ..

theorem took_inbound : (link.took stance at_end byte rest).inbound at_end = rest := Function.update_self ..

theorem took_other {side : End} (ne : side ≠ at_end) (offers : Bool) (option : UInt8) :
    (link.took stance at_end byte rest).side side offers option = link.side side offers option := by
  have party : (link.took stance at_end byte rest).party side = link.party side := Function.update_of_ne ne ..
  have inbound : (link.took stance at_end byte rest).inbound side = link.inbound side := Function.update_of_ne ne ..
  simp [Link.side, party, inbound]

theorem scanner_receiveByte (stance : Stance) (self : TelnetNegotiator) (byte : UInt8) :
    (self.receiveByte stance byte).1.scanner = self.scanner.next byte := by
  by_cases idle : self.scanner.found byte = none
  · exact (self.receiveByte_idle stance idle).2.1
  · cases place : self.scanner with
    | negotiate verb => rw [TelnetNegotiator.receiveByte_command place]; rfl
    | data | iac | sbOption | sbPayload | sbIac => simp [place, Scanner.found] at idle

theorem whole_receiveByte (stance : Stance) (self : TelnetNegotiator) (byte : UInt8) :
    Whole (self.receiveByte stance byte).2.response := by
  cases hit : self.scanner.found byte with
  | none => exact (self.receiveByte_idle stance hit).2.2.1
  | some cmd =>
    rcases TelnetNegotiator.receiveByte_found stance hit with ⟨_, quiet, _⟩ | ⟨_, ⟨tail, answer, silent⟩, _⟩
    · rw [quiet]
      exact whole_nil
    · rw [answer]
      exact (TelnetNegotiator.answer_bytes cmd _ silent).1

theorem ready_took (ready : link.Ready) (inbound : link.inbound at_end = byte :: rest) :
    (link.took stance at_end byte rest).Ready := by
  intro side
  by_cases same : side = at_end
  · subst same
    have pre := ready side
    rw [inbound] at pre
    rw [took_party, took_inbound, scanner_receiveByte]
    exact pre
  · have party : (link.took stance at_end byte rest).party side = link.party side := Function.update_of_ne same ..
    have elsewhere : (link.took stance at_end byte rest).inbound side = link.inbound side :=
      Function.update_of_ne same ..
    rw [party, elsewhere]
    exact ready side

def arrive (stance : Stance) (link : Link) (at_end : End) (byte : UInt8) (rest : List UInt8) : Link :=
  (link.took stance at_end byte rest).send at_end.other ((link.party at_end).receiveByte stance byte).2.response

theorem ready_arrive (ready : link.Ready) (inbound : link.inbound at_end = byte :: rest) :
    (link.arrive stance at_end byte rest).Ready :=
  ready_send (ready_took ready inbound) _ (whole_receiveByte stance _ _)

theorem view_arrive (ready : link.Ready) (inbound : link.inbound at_end = byte :: rest) (offers : Bool)
    (option : UInt8) :
    (link.arrive stance at_end byte rest).view at_end offers option =
      { near :=
          { held := ((link.party at_end).receiveByte stance byte).1.held offers option
            inbox := asks offers option (((link.party at_end).scanner.next byte).commands rest) }
        far :=
          { held := (link.view at_end offers option).far.held
            inbox := (link.view at_end offers option).far.inbox ++
              asks (!offers) option (commandsIn ((link.party at_end).receiveByte stance byte).2.response) } } := by
  have away : at_end ≠ at_end.other := at_end.other_ne.symm
  have near : (link.arrive stance at_end byte rest).side at_end offers option =
      (link.took stance at_end byte rest).side at_end offers option :=
    side_send_other _ away _ _ _
  have far : (link.arrive stance at_end byte rest).side at_end.other (!offers) option = _ :=
    side_send (ready_took ready inbound) at_end.other _ _ _
  rw [view, near, far, took_other at_end.other_ne, Link.side, took_party, took_inbound, scanner_receiveByte]
  rfl

theorem view_near_cons (inbound : link.inbound at_end = byte :: rest) (offers : Bool) (opt : UInt8) :
    (link.view at_end offers opt).near =
      { held := (link.party at_end).held offers opt
        inbox := asks offers opt (((link.party at_end).scanner.found byte).toList ++
          ((link.party at_end).scanner.next byte).commands rest) } := by
  simp [view, side, inbound, Scanner.commands]

theorem view_arrive_unheard (ready : link.Ready) (inbound : link.inbound at_end = byte :: rest) {offers : Bool}
    {option : UInt8} (unheard : asks offers option ((link.party at_end).scanner.found byte).toList = [])
    (held : ((link.party at_end).receiveByte stance byte).1.held offers option = (link.party at_end).held offers option)
    (unsaid : asks (!offers) option (commandsIn ((link.party at_end).receiveByte stance byte).2.response) = []) :
    (link.arrive stance at_end byte rest).view at_end offers option = link.view at_end offers option := by
  have near := view_near_cons inbound offers option
  rw [asks_append, unheard, List.nil_append] at near
  rw [view_arrive ready inbound, held, unsaid, List.append_nil, ← near]

theorem view_arrive_cases (ready : link.Ready) (inbound : link.inbound at_end = byte :: rest) (offers : Bool)
    (option : UInt8) :
    ((link.arrive stance at_end byte rest).view at_end offers option =
        (link.view at_end offers option).hear (stance.verdict offers option) ∧
      (asks (!offers) option (commandsIn ((link.party at_end).receiveByte stance byte).2.response)).length =
        (link.view at_end offers option).answers (stance.verdict offers option)) ∨
    ((link.arrive stance at_end byte rest).view at_end offers option = link.view at_end offers option ∧
      asks (!offers) option (commandsIn ((link.party at_end).receiveByte stance byte).2.response) = []) := by
  cases hit : (link.party at_end).scanner.found byte with
  | none =>
    obtain ⟨tables, _, silent⟩ := (link.party at_end).receiveByte_idle stance hit
    have unsaid : asks (!offers) option (commandsIn ((link.party at_end).receiveByte stance byte).2.response) = [] := by
      rw [silent.2]; rfl
    exact .inr ⟨view_arrive_unheard ready inbound (by rw [hit]; rfl)
      (TelnetNegotiator.held_eq_of_sameTables tables offers option) unsaid, unsaid⟩
  | some cmd =>
    by_cases about : cmd.offers = offers ∧ cmd.option = option
    · left
      obtain ⟨rfl, rfl⟩ := about
      have near := view_near_cons inbound cmd.offers cmd.option
      rw [hit, Option.toList_some, List.singleton_append, asks_same] at near
      rw [view_arrive ready inbound]
      rcases TelnetNegotiator.receiveByte_found stance hit with ⟨same, quiet, held⟩ |
        ⟨other, ⟨tail, answer, silent⟩, held⟩
      · obtain ⟨heard, answers⟩ := Dialogue.hear_same (stance.verdict cmd.offers cmd.option)
          (congrArg Party.inbox near) (by exact same)
        rw [heard, answers, quiet, held, near]
        exact ⟨congrArg (Dialogue.mk _) (congrArg (Party.mk _) (List.append_nil _)), rfl⟩
      · obtain ⟨heard, answers⟩ := Dialogue.hear_other (stance.verdict cmd.offers cmd.option)
          (congrArg Party.inbox near) (by exact other)
        have said : asks (!cmd.offers) cmd.option
            (commandsIn ((cmd.answer ((link.party at_end).settled stance cmd)).bytes ++ tail)) =
              [(link.party at_end).settled stance cmd] := by
          rw [(TelnetNegotiator.answer_bytes cmd _ silent).2, ← cmd.answer_offers, ← cmd.answer_option,
            asks_same, cmd.answer_asked]
          rfl
        rw [heard, answers, answer, held, if_pos ⟨rfl, rfl⟩, said, near]
        exact ⟨rfl, rfl⟩
    · right
      have unsaid :
        asks (!offers) option (commandsIn ((link.party at_end).receiveByte stance byte).2.response) = [] := by
        rcases TelnetNegotiator.receiveByte_found stance hit with ⟨_, quiet, _⟩ |
          ⟨_, ⟨tail, answer, silent⟩, _⟩
        · rw [quiet]; rfl
        · rw [answer, (TelnetNegotiator.answer_bytes cmd _ silent).2]
          have ne : ¬ ((cmd.answer ((link.party at_end).settled stance cmd)).offers = (!offers) ∧
              (cmd.answer ((link.party at_end).settled stance cmd)).option = option) := by
            rw [cmd.answer_offers, Bool.not_inj_iff]
            exact about
          exact asks_other ne []
      have held : ((link.party at_end).receiveByte stance byte).1.held offers option =
        (link.party at_end).held offers option := by
        rcases TelnetNegotiator.receiveByte_found stance hit with ⟨_, _, held⟩ | ⟨_, _, held⟩
        · exact held offers option
        · rw [held, if_neg fun both => about ⟨both.1.symm, both.2.symm⟩]
      exact ⟨view_arrive_unheard ready inbound (by rw [hit]; exact asks_other about []) held unsaid, unsaid⟩

theorem deliver_nothing (stances : End → Stance) (at_end : End) {count : Nat}
    (nothing : count = 0 ∨ link.inbound at_end = []) : link.deliver stances at_end count = (link, []) := by
  have chunk : (link.inbound at_end).take count = [] ∧ (link.inbound at_end).drop count = link.inbound at_end := by
    rcases nothing with zero | empty
    · rw [zero]
      exact ⟨rfl, rfl⟩
    · rw [empty]
      exact ⟨List.take_nil, List.drop_nil⟩
  simp [deliver, chunk.1, chunk.2, TelnetNegotiator.receive, send]

theorem deliver_cons (stances : End → Stance) (inbound : link.inbound at_end = byte :: rest) (count : Nat) :
    link.deliver stances at_end (count + 1) =
      (((link.arrive (stances at_end) at_end byte rest).deliver stances at_end count).1,
        ((link.party at_end).receiveByte (stances at_end) byte).2.response ++
          ((link.arrive (stances at_end) at_end byte rest).deliver stances at_end count).2) := by
  have away : at_end ≠ at_end.other := at_end.other_ne.symm
  simp only [deliver, inbound, List.take_succ_cons, List.drop_succ_cons, TelnetNegotiator.receive, arrive, send, took,
    Function.update_self, Function.update_of_ne away, Function.update_of_ne away.symm, Function.update_idem]
  rw [Function.update_comm away.symm, Function.update_idem, Function.update_idem, List.append_assoc]

variable {stances : End → Stance} {exchange : Exchange} {allowed : Dialogue → Prop} {start : Dialogue}
  {asked answered : Nat}

theorem talk_arrive (ready : link.Ready) (inbound : link.inbound at_end = byte :: rest)
    (talk : Talk (exchange.hostVerdict stances) (exchange.peerVerdict stances) allowed start
      (link.dialogue exchange) asked answered) :
    Talk (exchange.hostVerdict stances) (exchange.peerVerdict stances) allowed start
      ((link.arrive (stances at_end) at_end byte rest).dialogue exchange) asked
      (answered + (asks (exchange.host == at_end) exchange.option
        (commandsIn ((link.party at_end).receiveByte (stances at_end) byte).2.response)).length) := by
  rcases at_end.eq_or exchange.host with rfl | rfl
  · have own : (exchange.host == exchange.host) = !false := beq_self_eq_true _
    rcases view_arrive_cases ready inbound false exchange.option with ⟨heard, answers⟩ | ⟨same, silent⟩
    · rw [dialogue, heard, own, answers]
      exact .hear talk
    · rw [dialogue, same, own, silent]
      exact talk
  · have own : (exchange.host == exchange.host.other) = !true := beq_eq_false_iff_ne.mpr exchange.host.other_ne.symm
    rw [dialogue_eq_swap] at talk
    rcases view_arrive_cases ready inbound true exchange.option with ⟨heard, answers⟩ | ⟨same, silent⟩
    · rw [dialogue_eq_swap, heard, own, answers]
      exact .hearFar talk
    · rw [dialogue_eq_swap, same, own, silent]
      exact talk

theorem talk_deliver (count : Nat) (ready : link.Ready)
    (talk : Talk (exchange.hostVerdict stances) (exchange.peerVerdict stances) allowed start
      (link.dialogue exchange) asked answered) :
    (link.deliver stances at_end count).1.Ready ∧ Whole (link.deliver stances at_end count).2 ∧
      Talk (exchange.hostVerdict stances) (exchange.peerVerdict stances) allowed start
        ((link.deliver stances at_end count).1.dialogue exchange) asked
        (answered + (asks (exchange.host == at_end) exchange.option
          (commandsIn (link.deliver stances at_end count).2)).length) := by
  induction count generalizing link answered with
  | zero =>
    rw [deliver_nothing stances at_end (.inl rfl)]
    exact ⟨ready, whole_nil, talk⟩
  | succ count ih =>
    cases inbound : link.inbound at_end with
    | nil =>
      rw [deliver_nothing stances at_end (.inr inbound)]
      exact ⟨ready, whole_nil, talk⟩
    | cons byte rest =>
      have first_whole := whole_receiveByte (stances at_end) (link.party at_end) byte
      obtain ⟨later_ready, later_whole, later⟩ := ih (ready_arrive ready inbound) (talk_arrive ready inbound talk)
      rw [deliver_cons stances inbound, commandsIn_append first_whole, asks_append, List.length_append,
        ← Nat.add_assoc]
      exact ⟨later_ready, first_whole.append later_whole, later⟩

theorem view_resize (ready : link.Ready) (at_end : End) (columns rows : Option ℚ) :
    (link.resize at_end columns rows).Ready ∧
      ∀ side offers option, (link.resize at_end columns rows).view side offers option =
        link.view side offers option := by
  have silent : Silent ((link.party at_end).setWindowSize columns rows).2 := by
    unfold TelnetNegotiator.setWindowSize
    dsimp only
    split_ifs
    · exact TelnetNegotiator.nawsSubnegotiation_silent _
    · exact silent_nil
  let sized : Link :=
    { link with party := Function.update link.party at_end ((link.party at_end).setWindowSize columns rows).1 }
  have place : ∀ side, (sized.party side).scanner = (link.party side).scanner ∧
      ∀ offers option, (sized.party side).held offers option = (link.party side).held offers option := by
    intro side
    by_cases same : side = at_end
    · subst same
      have party : sized.party side = ((link.party side).setWindowSize columns rows).1 := Function.update_self ..
      rw [party]
      exact ⟨rfl, fun _ _ => rfl⟩
    · have party : sized.party side = link.party side := Function.update_of_ne same ..
      rw [party]
      exact ⟨rfl, fun _ _ => rfl⟩
  have sized_ready : sized.Ready := fun side => by
    rw [(place side).1]
    exact ready side
  have sized_side : ∀ side offers option, sized.side side offers option = link.side side offers option :=
    fun side offers option => by
      rw [Link.side, (place side).1, (place side).2]
      rfl
  refine ⟨ready_send sized_ready _ silent.1, fun side offers option => ?_⟩
  rw [resize, view_send_silent sized_ready _ silent, view, sized_side, sized_side, view]

end Link

namespace History

def Tracks (stances : End → Stance) (allowed : Exchange → Dialogue → Prop) (start : Link) (history : History) :
    Prop :=
  history.link.Ready ∧ ∀ exchange : Exchange,
    Talk (exchange.hostVerdict stances) (exchange.peerVerdict stances) (allowed exchange) (start.dialogue exchange)
      (history.link.dialogue exchange) ((history.injected.map Sent.exchange).count exchange)
      ((history.answered.map Sent.exchange).count exchange)

variable {stances : End → Stance} {allowed : Exchange → Dialogue → Prop} {start : Link} {history : History}

/-- Each act keeps every exchange a talk of its two verdicts. -/
theorem tracks_step (tracks : history.Tracks stances allowed start) (act : Act)
    (fine : ∀ side cmd verb, act = .inject side cmd verb →
      allowed (Sent.mk side.other cmd).exchange
        ((history.step stances act).link.dialogue (Sent.mk side.other cmd).exchange)) :
    (history.step stances act).Tracks stances allowed start := by
  obtain ⟨ready, talks⟩ := tracks
  cases act with
  | deliver side count =>
    refine ⟨(Link.talk_deliver count ready (talks ⟨side, 0⟩)).1, fun exchange => ?_⟩
    simp only [step, List.map_append, List.count_append, count_sent]
    exact (Link.talk_deliver count ready (talks exchange)).2.2
  | inject side cmd verb =>
    refine ⟨Link.ready_send ready side (command_bytes verb).1, fun exchange => ?_⟩
    have talk := talks exchange
    have allows := fine side cmd verb rfl
    have heard := Link.dialogue_send_command ready side verb exchange
    by_cases about : (Sent.mk side.other cmd).exchange = exchange
    · have counted : ((step stances history (.inject side cmd verb)).injected.map Sent.exchange).count exchange =
          (history.injected.map Sent.exchange).count exchange + 1 := by
        simp [step, about]
      rw [counted]
      rw [about] at allows
      simp only [step] at allows ⊢
      rcases heard.1 about with heard | heard
      · rw [heard] at allows ⊢
        exact .ask cmd.asked talk allows
      · rw [heard] at allows ⊢
        exact .askFar cmd.asked talk allows
    · have counted : ((step stances history (.inject side cmd verb)).injected.map Sent.exchange).count exchange =
          (history.injected.map Sent.exchange).count exchange := by
        simp [step, about]
      rw [counted]
      simp only [step]
      rwa [heard.2 about]
  | pass side bytes silent =>
    refine ⟨Link.ready_send ready side silent.1, fun exchange => ?_⟩
    have same : (history.link.send side bytes).dialogue exchange = history.link.dialogue exchange :=
      Link.view_send_silent ready side silent exchange.host false exchange.option
    have talk := talks exchange
    rwa [← same] at talk
  | resize side columns rows =>
    obtain ⟨resized, same⟩ := Link.view_resize ready side columns rows
    refine ⟨resized, fun exchange => ?_⟩
    have same : (history.link.resize side columns rows).dialogue exchange = history.link.dialogue exchange :=
      same exchange.host false exchange.option
    have talk := talks exchange
    rwa [← same] at talk

end History

end NexTerminal.Telnet
