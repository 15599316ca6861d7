import Mathlib.Data.List.Perm.Subperm
import NexTerminal.Telnet.Negotiation

namespace NexTerminal.Telnet

open Library.Announce

/-- An end of the exchange always comes to hold the same about the option. -/
def Exchange.Insisted (stances : End → Stance) (exchange : Exchange) : Prop :=
  ∃ answer, Insists answer (exchange.hostVerdict stances) ∨ Insists answer (exchange.peerVerdict stances)

namespace History

variable {stances : End → Stance} {start : Link} {history : History}

theorem tracks_run (tracks : history.Tracks stances (fun _ _ => True) start) (acts : List Act) :
    (history.run stances acts).Tracks stances (fun _ _ => True) start := by
  induction acts generalizing history with
  | nil => exact tracks
  | cons act rest ih => exact ih (tracks_step tracks act fun _ _ _ _ => trivial)

theorem tracks_tame (tracks : history.Tracks stances (fun exchange d => exchange.Mutual stances → d.Settling) start)
    (acts : List Act) (tame : Tame stances history acts) :
    (history.run stances acts).Tracks stances (fun exchange d => exchange.Mutual stances → d.Settling) start := by
  induction acts generalizing history with
  | nil => exact tracks
  | cons act rest ih => exact ih (tracks_step tracks act tame.1) tame.2

end History

theorem fresh_tracks (stances : End → Stance) (allowed : Exchange → Dialogue → Prop)
    (opts : End → TelnetNegotiatorOptions) :
    History.Tracks stances allowed (Link.create opts) { link := Link.create opts } :=
  ⟨Link.ready_create opts, fun _ => .start⟩

theorem answered_le (stances : End → Stance) (opts : End → TelnetNegotiatorOptions) (acts : List Act)
    (tame : Tame stances { link := Link.create opts } acts) (exchange : Exchange)
    (decided : exchange.Mutual stances ∨ exchange.Insisted stances) :
    ((History.run stances { link := Link.create opts } acts).answered.map Sent.exchange).count exchange ≤
      3 * ((History.run stances { link := Link.create opts } acts).injected.map Sent.exchange).count exchange := by
  have tracks := History.tracks_tame (fresh_tracks stances _ opts) acts tame
  have talk := tracks.2 exchange
  rcases decided with ⟨host, peer⟩ | ⟨answer, host | peer⟩
  · have settled := Talk.settled host peer ⟨rfl, rfl⟩ (talk.mono fun d fine => fine ⟨host, peer⟩)
    omega
  · have insisted := Talk.insisted host ⟨rfl, rfl⟩ (.inl rfl) talk
    omega
  · have insisted := Talk.insisted peer ⟨rfl, rfl⟩ (.inl rfl) talk.swap
    omega

theorem length_le_of_count {α β : Type} [DecidableEq β] (kind : α → β) (items others : List α) (times : Nat)
    (bounded : ∀ b, (items.map kind).count b ≤ times * (others.map kind).count b) :
    items.length ≤ times * others.length := by
  have within : (items.map kind).Subperm (List.replicate times (others.map kind)).flatten := by
    refine List.subperm_ext_iff.mpr fun b _ => (bounded b).trans (Nat.le_of_eq ?_)
    simp [List.count_flatten]
  have lengths := within.length_le
  simpa using lengths

theorem inbound_delivered (stances : End → Stance) (link : Link) (side : End) :
    (link.deliver stances side (link.inbound side).length).1.inbound side = [] := by
  simp [Link.deliver, Link.send, Function.update_of_ne side.other_ne.symm]

variable {stances : End → Stance} {alive : Dialogue → Prop} {exchange : Exchange}

section

variable (endless : Endless (exchange.hostVerdict stances) (exchange.peerVerdict stances) alive)
include endless

theorem deliver_owed {link : Link} (ready : link.Ready) (begins : alive (link.dialogue exchange)) :
    ∃ side, (link.deliver stances side (link.inbound side).length).1.Ready ∧
      alive ((link.deliver stances side (link.inbound side).length).1.dialogue exchange) ∧
      0 < (asks (exchange.host == side) exchange.option
        (commandsIn (link.deliver stances side (link.inbound side).length).2)).length := by
  have hears := fun side (count : Nat) =>
    (Link.talk_deliver count ready .start :
      (link.deliver stances side count).1.Ready ∧ Whole (link.deliver stances side count).2 ∧
        Undisturbed (exchange.hostVerdict stances) (exchange.peerVerdict stances) (link.dialogue exchange)
          ((link.deliver stances side count).1.dialogue exchange)
          (0 + (asks (exchange.host == side) exchange.option (commandsIn (link.deliver stances side count).2)).length))
  rcases endless.owes begins with host | peer
  · obtain ⟨next_ready, _, talk⟩ := hears exchange.host (link.inbound exchange.host).length
    refine ⟨exchange.host, next_ready, endless.keeps begins talk, Nat.pos_of_ne_zero fun silent => ?_⟩
    rw [silent] at talk
    refine host _ talk ?_
    simp only [Link.dialogue, Link.view, Link.side, inbound_delivered]
    rfl
  · obtain ⟨next_ready, _, talk⟩ := hears exchange.host.other (link.inbound exchange.host.other).length
    refine ⟨exchange.host.other, next_ready, endless.keeps begins talk, Nat.pos_of_ne_zero fun silent => ?_⟩
    rw [silent] at talk
    refine peer _ talk ?_
    simp only [Link.dialogue, Link.view, Link.side, inbound_delivered]
    rfl

theorem endless_answers (n : Nat) {history : History} (ready : history.link.Ready)
    (begins : alive (history.link.dialogue exchange)) :
    ∃ acts, (∀ act ∈ acts, ∃ side count, act = Act.deliver side count) ∧
      (history.run stances acts).injected = history.injected ∧
      (history.answered.map Sent.exchange).count exchange + n ≤
        ((history.run stances acts).answered.map Sent.exchange).count exchange := by
  induction n generalizing history with
  | zero => exact ⟨[], nofun, rfl, Nat.le_refl _⟩
  | succ n ih =>
    obtain ⟨side, next_ready, lives, answered⟩ := deliver_owed endless ready begins
    let act := Act.deliver side (history.link.inbound side).length
    have next : (history.step stances act).link =
      (history.link.deliver stances side (history.link.inbound side).length).1 := rfl
    rw [← next] at next_ready lives
    obtain ⟨acts, deliveries, injected, more⟩ := ih next_ready lives
    refine ⟨act :: acts, List.forall_mem_cons.mpr ⟨⟨side, _, rfl⟩, deliveries⟩, injected, ?_⟩
    have counted : ((history.step stances act).answered.map Sent.exchange).count exchange =
        (history.answered.map Sent.exchange).count exchange + (asks (exchange.host == side) exchange.option
          (commandsIn (history.link.deliver stances side (history.link.inbound side).length).2)).length := by
      rw [History.step, List.map_append, List.count_append, count_sent]
    have run : history.run stances (act :: acts) = (history.step stances act).run stances acts := rfl
    rw [run]
    omega

theorem endless_total (opts : End → TelnetNegotiatorOptions) (acts : List Act)
    (begins : alive ((History.run stances { link := Link.create opts } acts).link.dialogue exchange)) (n : Nat) :
    let reached := History.run stances { link := Link.create opts } acts
    ∃ more, (∀ act ∈ more, ∃ side count, act = Act.deliver side count) ∧
      (reached.run stances more).injected = reached.injected ∧ n ≤ (reached.run stances more).answered.length := by
  intro reached
  have tracks : reached.Tracks stances (fun _ _ => True) (Link.create opts) :=
    History.tracks_run (fresh_tracks stances _ opts) acts
  obtain ⟨more, deliveries, injected, enough⟩ := endless_answers endless n tracks.1 begins
  have total : ((reached.run stances more).answered.map Sent.exchange).count exchange ≤ _ := List.count_le_length
  rw [List.length_map] at total
  exact ⟨more, deliveries, injected, by omega⟩

end

/-- Always refuse, always agree, or do what is asked. -/
def Fixed (verdict : Verdict) : Prop := (∃ answer, Insists answer verdict) ∨ Follows verdict

theorem contains_follows {ok : List UInt8} {opt : UInt8} (mem : opt ∈ ok) :
    Follows (fun _ asked => asked && ok.contains opt) := by
  intro held asked
  simp [mem]

theorem contains_insists {ok : List UInt8} {opt : UInt8} (missing : opt ∉ ok) :
    Insists false (fun _ asked => asked && ok.contains opt) := by
  intro held asked
  simp [missing]

theorem contains_fixed (ok : List UInt8) (opt : UInt8) :
    Fixed (fun _ asked => asked && ok.contains opt) := by
  by_cases mem : opt ∈ ok
  · exact .inr (contains_follows mem)
  · exact .inl ⟨false, contains_insists mem⟩

/-- A negotiator, and a peer whose policy on the options that the negotiator accepts is
fixed, leave no option undecided. -/
theorem decided (negotiator : stances .near = .negotiator)
    (own_fixed : ∀ option ∈ REMOTE_ACCEPTED, Fixed ((stances .far).own option))
    (remote_fixed : ∀ option ∈ LOCAL_ACCEPTED, Fixed ((stances .far).remote option)) (exchange : Exchange) :
    exchange.Mutual stances ∨ exchange.Insisted stances := by
  obtain ⟨host, option⟩ := exchange
  cases host with
  | near =>
    have own : (Exchange.mk .near option).hostVerdict stances = fun _ asked =>
      asked && LOCAL_ACCEPTED.contains option :=
      congrArg (Stance.verdict · false option) negotiator
    by_cases mem : option ∈ LOCAL_ACCEPTED
    · rcases remote_fixed option mem with ⟨answer, insists⟩ | follows
      · exact .inr ⟨answer, .inr insists⟩
      · exact .inl ⟨own ▸ contains_follows mem, follows⟩
    · exact .inr ⟨false, .inl (own ▸ contains_insists mem)⟩
  | far =>
    have remote : (Exchange.mk .far option).peerVerdict stances = fun _ asked =>
      asked && REMOTE_ACCEPTED.contains option :=
      congrArg (Stance.verdict · true option) negotiator
    by_cases mem : option ∈ REMOTE_ACCEPTED
    · rcases own_fixed option mem with ⟨answer, insists⟩ | follows
      · exact .inr ⟨answer, .inl insists⟩
      · exact .inl ⟨follows, remote ▸ contains_follows mem⟩
    · exact .inr ⟨false, .inr (remote ▸ contains_insists mem)⟩

theorem answered_iff (stance : Stance) (self : TelnetNegotiator) (cmd : Command) :
    ((self.answerNegotiation stance cmd.verb cmd.option).2 = [] ↔
      self.held cmd.offers cmd.option = some (self.settled stance cmd)) ∧
    (self.held cmd.offers cmd.option ≠ some (self.settled stance cmd) →
      ∃ tail, (self.answerNegotiation stance cmd.verb cmd.option).2 =
        (cmd.answer (self.settled stance cmd)).bytes ++ tail ∧ Silent tail) ∧
    (self.answerNegotiation stance cmd.verb cmd.option).1.held cmd.offers cmd.option =
      some (self.settled stance cmd) := by
  rcases eq_or_ne (self.held cmd.offers cmd.option) (some (self.settled stance cmd)) with same | ne
  · rw [TelnetNegotiator.answerNegotiation_same cmd same]
    exact ⟨⟨fun _ => same, fun _ => rfl⟩, absurd same, same⟩
  · obtain ⟨changed, tail, answer, silent, held⟩ := TelnetNegotiator.answerNegotiation_other cmd ne
    rw [answer, held, if_pos ⟨rfl, rfl⟩]
    exact ⟨⟨nofun, fun same => absurd same ne⟩, fun _ => ⟨tail, rfl, silent⟩, rfl⟩

theorem settling_inject {link : Link} (ready : link.Ready) (side : End) {cmd : Command} (verb : cmd.Negotiates)
    (quiet : (link.dialogue (Sent.mk side.other cmd).exchange).Quiet) :
    ((link.send side cmd.bytes).dialogue (Sent.mk side.other cmd).exchange).Settling := by
  rcases (link.dialogue_send_command ready side verb _).1 rfl with near | far
  · rw [near]
    exact Dialogue.settling_ask quiet cmd.asked
  · rw [far, Dialogue.settling_swap]
    exact Dialogue.settling_ask ⟨quiet.2, quiet.1⟩ cmd.asked

/-- Where outsiders leave the exchanges settling, every injected command costs at most three answers, and an unsettled
exchange has no bound. -/
theorem negotiation_bounded (stances : End → Stance) (negotiator : stances .near = .negotiator)
    (own_fixed : ∀ option ∈ REMOTE_ACCEPTED, Fixed ((stances .far).own option))
    (remote_fixed : ∀ option ∈ LOCAL_ACCEPTED, Fixed ((stances .far).remote option))
    (options : End → TelnetNegotiatorOptions) : (∀ acts, Tame stances { link := Link.create options } acts →
      let final := History.run stances { link := Link.create options } acts
      (∀ exchange, (final.answered.map Sent.exchange).count exchange ≤
        3 * (final.injected.map Sent.exchange).count exchange) ∧
      final.answered.length ≤ 3 * final.injected.length) ∧
    (∀ (self : TelnetNegotiator) (command : Command),
      ((self.answerNegotiation .negotiator command.verb command.option).2 = [] ↔
        self.held command.offers command.option = some (self.settled .negotiator command)) ∧
      (self.held command.offers command.option ≠ some (self.settled .negotiator command) →
        ∃ tail, (self.answerNegotiation .negotiator command.verb command.option).2 =
          (command.answer (self.settled .negotiator command)).bytes ++ tail ∧ Silent tail) ∧
      (self.answerNegotiation .negotiator command.verb command.option).1.held command.offers command.option =
        some (self.settled .negotiator command)) ∧
    (∀ acts (exchange : Exchange), exchange.Mutual stances →
      let reached := History.run stances { link := Link.create options } acts
      ¬ (reached.link.dialogue exchange).Settling →
        ∀ n, ∃ more, (∀ act ∈ more, ∃ side count, act = Act.deliver side count) ∧
          n ≤ (reached.run stances more).answered.length) ∧
    (∀ acts side (command : Command) (verb : command.Negotiates),
      let reached := History.run stances { link := Link.create options } acts
      (reached.link.dialogue (Sent.mk side.other command).exchange).Quiet →
        ((reached.step stances (.inject side command verb)).link.dialogue
          (Sent.mk side.other command).exchange).Settling) := by
  refine ⟨fun acts tame => ?_, answered_iff .negotiator, ?_, fun acts side command verb => ?_⟩
  · have each := fun exchange => answered_le stances options acts tame exchange
      (decided negotiator own_fixed remote_fixed exchange)
    exact ⟨each, length_le_of_count Sent.exchange _ _ 3 each⟩
  · intro acts exchange both reached unsettled n
    obtain ⟨more, deliveries, _, enough⟩ := endless_total (endless_unsettled both.1 both.2) options acts unsettled n
    exact ⟨more, deliveries, enough⟩
  · exact settling_inject (History.tracks_run (fresh_tracks stances _ options) acts).1 side verb

theorem negotiation_bounded_once :
    let acts : List Act :=
      [.inject .near ⟨DO, OPT_SGA⟩ (by decide), .deliver .near 3, .deliver .far 2, .deliver .far 1]
    let final := History.run (fun _ => .negotiator) { link := Link.create fun _ => {} } acts
    final.answered.length ≤ 3 * final.injected.length ∧
      final.answered = [⟨.near, ⟨WILL, OPT_SGA⟩⟩, ⟨.far, ⟨DO, OPT_SGA⟩⟩] := by
  intro acts final
  have tame : Tame (fun _ => .negotiator) { link := Link.create fun _ => {} } acts := by
    refine ⟨fun side command verb same _ => ?_, nofun, nofun, nofun, trivial⟩
    cases same
    decide
  have bounded := (negotiation_bounded (fun _ => .negotiator) rfl (fun option _ => contains_fixed _ option)
    (fun option _ => contains_fixed _ option) fun _ => {}).1 acts tame
  exact ⟨bounded.2, by decide⟩

theorem endless_runs (endless : Endless (exchange.hostVerdict stances) (exchange.peerVerdict stances) alive)
    (opts : End → TelnetNegotiatorOptions) (acts : List Act)
    (begins : alive ((History.run stances { link := Link.create opts } acts).link.dialogue exchange)) (bound : Nat) :
    ∃ all, (History.run stances { link := Link.create opts } all).injected.length =
        (History.run stances { link := Link.create opts } acts).injected.length ∧
      bound < (History.run stances { link := Link.create opts } all).answered.length := by
  obtain ⟨more, _, injected, enough⟩ := endless_total endless opts acts begins (bound + 1)
  have whole : History.run stances { link := Link.create opts } (acts ++ more) =
      (History.run stances { link := Link.create opts } acts).run stances more := List.foldl_append
  exact ⟨acts ++ more, by rw [whole, injected], by rw [whole]; omega⟩

/-- A peer that takes the opposite of whatever it hears, and says so when its state changes. -/
def Stance.contrary : Stance where
  remote _ _ asked := !asked
  own _ _ asked := !asked

def contraryStances : End → Stance
  | .near => .negotiator
  | .far => .contrary

/-- Negotiators asked for opposite things at once, and a contrary peer. -/
theorem negotiation_unbounded :
    (∀ bound : Nat, ∃ acts, let final := History.run (fun _ => .negotiator) { link := Link.create fun _ => {} } acts
      final.injected.length = 2 ∧ bound < final.answered.length) ∧
    (∀ bound : Nat, ∃ acts, let final := History.run contraryStances { link := Link.create fun _ => {} } acts
      final.injected.length = 1 ∧ bound < final.answered.length) := by
  constructor
  · intro bound
    let crossing : List Act :=
      [.inject .near ⟨DO, OPT_SGA⟩ (by decide), .inject .far ⟨WONT, OPT_SGA⟩ (by decide)]
    have own : Follows ((Exchange.mk .near OPT_SGA).hostVerdict fun _ => .negotiator) :=
      contains_follows (by decide : OPT_SGA ∈ LOCAL_ACCEPTED)
    have remote : Follows ((Exchange.mk .near OPT_SGA).peerVerdict fun _ => .negotiator) :=
      contains_follows (by decide : OPT_SGA ∈ REMOTE_ACCEPTED)
    have unsettled : ¬ ((History.run (fun _ => .negotiator) { link := Link.create fun _ => {} } crossing).link.dialogue
        ⟨.near, OPT_SGA⟩).Settling := by
      decide
    exact endless_runs (endless_unsettled own remote) (fun _ => {}) crossing unsettled bound
  · intro bound
    let once : List Act := [.inject .near ⟨WILL, OPT_ECHO⟩ (by decide)]
    have contradicts : Contradicts ((Exchange.mk .far OPT_ECHO).hostVerdict contraryStances) := fun _ _ => rfl
    have remote : Follows ((Exchange.mk .far OPT_ECHO).peerVerdict contraryStances) :=
      contains_follows (by decide : OPT_ECHO ∈ REMOTE_ACCEPTED)
    have circling : Circling ((History.run contraryStances { link := Link.create fun _ => {} } once).link.dialogue
        ⟨.far, OPT_ECHO⟩) :=
      ⟨true, by decide, .inl (by decide)⟩
    exact endless_runs (endless_circling contradicts remote) (fun _ => {}) once circling bound

end NexTerminal.Telnet
