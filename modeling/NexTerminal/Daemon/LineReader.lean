import NexTerminal.Library.Sequences

/-! Newline-delimited framing with a hard length cap (`framing.rs`). -/

namespace NexTerminal.Daemon

open Library

namespace Framing

abbrev Bytes := List UInt8

def newline : UInt8 := 10
def carriageReturn : UInt8 := 13

inductive Line
  | text (text : String)
  | oversized (bytes : Nat)
  | invalidUtf8
  | eof
deriving DecidableEq

/-- What a read of the underlying stream comes to; a slice is never empty. -/
inductive Read
  | slice (first : UInt8) (rest : Bytes)
  | interrupted
  | failed (kind : String)
deriving DecidableEq

def remaining : Bytes → List Read → List Read
  | [], reads => reads
  | first :: rest, reads => .slice first rest :: reads

structure Partial where
  buf : Bytes := []
  overflowed : Bool := false
  dropped : Nat := 0
deriving DecidableEq

namespace Partial

def take (limit : Nat) (line : Partial) (bytes : Bytes) : Partial :=
  if line.overflowed then { line with dropped := line.dropped + bytes.length }
  else if line.buf.length + bytes.length > limit then
    { buf := [], overflowed := true, dropped := line.buf.length + bytes.length }
  else { line with buf := line.buf ++ bytes }

def withoutReturn (bytes : Bytes) : Bytes :=
  if bytes.getLast? = some carriageReturn then bytes.dropLast else bytes

def finish (line : Partial) (sawTerminator : Bool) : Line :=
  if line.overflowed then .oversized line.dropped
  else if line.buf.isEmpty && !sawTerminator then .eof
  else
    match String.fromUTF8? ⟨(withoutReturn line.buf).toArray⟩ with
    | some text => .text text
    | none => .invalidUtf8

end Partial

/-- The loop of `next_line`, over what the stream still has to give. -/
def nextLine.loop (limit : Nat) (line : Partial) : List Read → Except String Line × List Read
  | [] => (.ok (line.finish false), [])
  | .interrupted :: reads => nextLine.loop limit line reads
  | .failed kind :: reads => (.error kind, reads)
  | .slice first rest :: reads =>
    let available := first :: rest
    let line := line.take limit (available.takeWhile (· ≠ newline))
    match available.dropWhile (· ≠ newline) with
    | [] => nextLine.loop limit line reads
    | _ :: more => (.ok (line.finish true), remaining more reads)

def nextLine (limit : Nat) (reads : List Read) : Except String Line × List Read := nextLine.loop limit {} reads

def calls (limit : Nat) : Nat → List Read → List (Except String Line)
  | 0, _ => []
  | n + 1, reads =>
    let (line, reads) := nextLine limit reads
    line :: calls limit n reads

def Read.bytes : Read → Bytes
  | .slice first rest => first :: rest
  | .interrupted => []
  | .failed _ => []

def streamOf (reads : List Read) : Bytes := reads.flatMap Read.bytes

def Unbroken (reads : List Read) : Prop := ∀ kind, .failed kind ∉ reads

def framed (limit : Nat) (line : Bytes) : Line :=
  if line.length > limit then .oversized line.length
  else
    match String.fromUTF8? ⟨(Partial.withoutReturn line).toArray⟩ with
    | some text => .text text
    | none => .invalidUtf8

/-- The lines between newlines; what follows the last newline is one if there is anything. -/
def linesOf (stream : Bytes) : List Bytes :=
  let parts := stream.splitOn newline
  if parts.getLast? = some [] then parts.dropLast else parts

def reference (limit : Nat) (stream : Bytes) : List Line := (linesOf stream).map (framed limit)

variable {limit : Nat} {line : Partial} {reads : List Read} {gathered more : Bytes}

theorem streamOf_remaining (rest : Bytes) (reads : List Read) :
    streamOf (remaining rest reads) = rest ++ streamOf reads := by
  cases rest with
  | nil | cons first rest => rfl

theorem Unbroken.remaining (unbroken : Unbroken reads) (rest : Bytes) : Unbroken (remaining rest reads) := by
  cases rest with
  | nil => exact unbroken
  | cons first rest => exact fun kind mem => unbroken kind ((List.mem_cons.mp mem).resolve_left nofun)

theorem linesOf_cons (plain : newline ∉ gathered) (stream : Bytes) :
    linesOf (gathered ++ newline :: stream) = gathered :: linesOf stream := by
  have parts : (gathered ++ newline :: stream).splitOn newline = gathered :: stream.splitOn newline :=
    List.splitOn_append_cons_self_of_not_mem plain stream
  obtain ⟨first, rest, shape⟩ := List.exists_cons_of_ne_nil (List.splitOn_ne_nil newline stream)
  unfold linesOf
  rw [parts, shape]
  simp only [List.getLast?_cons_cons]
  split <;> rfl

theorem linesOf_open (plain : newline ∉ gathered) :
    linesOf gathered = if gathered.isEmpty then [] else [gathered] := by
  unfold linesOf
  rw [List.splitOn_eq_singleton plain]
  cases gathered <;> simp

structure Holds (limit : Nat) (gathered : Bytes) (line : Partial) : Prop where
  short : gathered.length ≤ limit → line = { buf := gathered }
  long : limit < gathered.length → line = { overflowed := true, dropped := gathered.length }

theorem Holds.start (limit : Nat) : Holds limit [] {} := ⟨fun _ => rfl, fun long => absurd long (Nat.not_lt_zero _)⟩

section

variable (holds : Holds limit gathered line)
include holds

theorem Holds.take (bytes : Bytes) : Holds limit (gathered ++ bytes) (line.take limit bytes) := by
  rcases Nat.lt_or_ge limit gathered.length with long | short
  · rw [holds.long long]
    refine ⟨fun short => ?_, fun _ => ?_⟩
    · rw [List.length_append] at short
      omega
    · rw [List.length_append]
      rfl
  · rw [holds.short short]
    refine ⟨fun fits => ?_, fun exceeds => ?_⟩
    · rw [List.length_append] at fits
      have within : ¬ gathered.length + bytes.length > limit := by omega
      simp [Partial.take, if_neg within]
    · rw [List.length_append] at exceeds ⊢
      have beyond : gathered.length + bytes.length > limit := exceeds
      simp [Partial.take, if_pos beyond]

theorem Holds.bounded : line.buf.length ≤ limit := by
  rcases Nat.lt_or_ge limit gathered.length with long | short
  · rw [holds.long long]
    exact Nat.zero_le _
  · rw [holds.short short]
    exact short

theorem Holds.finish_terminated : line.finish true = framed limit gathered := by
  unfold Partial.finish framed
  rcases Nat.lt_or_ge limit gathered.length with long | short
  · rw [holds.long long, if_pos long, if_pos rfl]
  · rw [holds.short short, if_neg (Nat.not_lt.mpr short)]
    simp

theorem Holds.finish_open : line.finish false = if gathered.isEmpty then .eof else framed limit gathered := by
  unfold Partial.finish framed
  rcases Nat.lt_or_ge limit gathered.length with long | short
  · have filled : ¬ gathered.isEmpty = true := by
      rw [List.isEmpty_iff]
      rintro rfl
      exact absurd long (Nat.not_lt_zero _)
    rw [holds.long long, if_pos long, if_pos rfl, if_neg filled]
  · rw [holds.short short, if_neg (Nat.not_lt.mpr short)]
    simp

end

/-- What a call comes to: the first line of the stream, and a stream of the others. -/
structure Called (limit : Nat) (stream : Bytes) (result : Except String Line × List Read) : Prop where
  line : result.1 = .ok (((linesOf stream).head?.map (framed limit)).getD .eof)
  rest : linesOf (streamOf result.2) = (linesOf stream).tail
  unbroken : Unbroken result.2

theorem loop_called (unbroken : Unbroken reads) (holds : Holds limit gathered line) (plain : newline ∉ gathered) :
    Called limit (gathered ++ streamOf reads) (nextLine.loop limit line reads) := by
  induction reads generalizing gathered line with
  | nil =>
    rw [streamOf, List.flatMap_nil, List.append_nil, nextLine.loop, holds.finish_open]
    refine ⟨?_, ?_, unbroken⟩
    · rw [linesOf_open plain]
      split <;> rfl
    · rw [linesOf_open plain]
      split <;> rfl
  | cons read reads ih =>
    have later : Unbroken reads := fun kind mem => unbroken kind (List.mem_cons_of_mem _ mem)
    cases read with
    | interrupted => exact ih later holds plain
    | failed kind => exact absurd List.mem_cons_self (unbroken kind)
    | slice first rest =>
      have stream : streamOf (.slice first rest :: reads) = (first :: rest) ++ streamOf reads := rfl
      rw [stream, nextLine.loop]
      generalize first :: rest = available
      have whole : available.takeWhile (· ≠ newline) ++ available.dropWhile (· ≠ newline) = available :=
        List.takeWhile_append_dropWhile
      have head : newline ∉ gathered ++ available.takeWhile (· ≠ newline) := by
        rw [List.mem_append, not_or]
        exact ⟨plain, fun mem => by simpa using List.mem_takeWhile_imp mem⟩
      have taken := holds.take (available.takeWhile (· ≠ newline))
      cases tail : available.dropWhile (· ≠ newline) with
      | nil =>
        -- the whole slice belongs to the line
        rw [tail, List.append_nil] at whole
        rw [whole] at taken head ⊢
        rw [← List.append_assoc]
        exact ih later taken head
      | cons separator more =>
        have ends : separator = newline := by
          have stops := List.head?_dropWhile_not (· ≠ newline) available
          rw [tail] at stops
          simpa using stops
        have split : gathered ++ (available ++ streamOf reads) =
            (gathered ++ available.takeWhile (· ≠ newline)) ++ newline :: (more ++ streamOf reads) := by
          rw [tail, ends] at whole
          calc gathered ++ (available ++ streamOf reads)
              = gathered ++ (available.takeWhile (· ≠ newline) ++ newline :: more ++ streamOf reads) := by rw [whole]
            _ = (gathered ++ available.takeWhile (· ≠ newline)) ++ newline :: (more ++ streamOf reads) := by
                rw [List.append_assoc, List.cons_append, List.append_assoc]
        rw [split]
        refine ⟨?_, ?_, later.remaining more⟩
        · rw [linesOf_cons head, taken.finish_terminated]
          rfl
        · rw [linesOf_cons head, streamOf_remaining, List.tail_cons]

/-- The first results of a reader that has these lines to give, and the end of the stream for
ever after. -/
def answers (lines : List Line) (n : Nat) : List (Except String Line) :=
  ((lines ++ List.replicate n Line.eof).take n).map .ok

theorem answers_nil (n : Nat) : answers [] (n + 1) = .ok .eof :: answers [] n := by
  simp [answers, List.replicate_succ]

theorem answers_cons (line : Line) (lines : List Line) (n : Nat) :
    answers (line :: lines) (n + 1) = .ok line :: answers lines n := by
  have longer : (lines ++ List.replicate (n + 1) Line.eof).take n = (lines ++ List.replicate n Line.eof).take n := by
    rw [List.replicate_succ', ← List.append_assoc, List.take_append_of_le_length (by simp)]
  rw [answers, List.cons_append, List.take_succ_cons, List.map_cons, longer, answers]

theorem calls_eq (unbroken : Unbroken reads) (n : Nat) :
    calls limit n reads = answers (reference limit (streamOf reads)) n := by
  induction n generalizing reads with
  | zero => rfl
  | succ n ih =>
    have called : Called limit ([] ++ streamOf reads) (nextLine limit reads) :=
      loop_called unbroken (.start limit) List.not_mem_nil
    rw [List.nil_append] at called
    rw [calls]
    dsimp only
    rw [ih called.unbroken, called.line, reference, reference, called.rest]
    cases linesOf (streamOf reads) with
    | nil => exact (answers_nil n).symm
    | cons first rest => exact (answers_cons _ _ n).symm

inductive Passes (limit : Nat) : Partial → List Read → Partial → Prop
  | here (line : Partial) (reads : List Read) : Passes limit line reads line
  | interrupted {line reads later} : Passes limit line reads later → Passes limit line (.interrupted :: reads) later
  | slice {line first rest reads later} :
      Passes limit (line.take limit ((first :: rest).takeWhile (· ≠ newline))) reads later →
        Passes limit line (.slice first rest :: reads) later

theorem Passes.holds {later : Partial} (passes : Passes limit line reads later) (holds : Holds limit gathered line) :
    ∃ gathered, Holds limit gathered later := by
  induction passes generalizing gathered with
  | here line reads => exact ⟨gathered, holds⟩
  | interrupted _ ih => exact ih holds
  | slice _ ih => exact ih (holds.take _)

/-- However a stream is cut, calls give its lines and then its end, within the limit. -/
theorem lineReader_refines (limit : Nat) (unbroken : Unbroken reads) :
    (∀ n, calls limit n reads = answers (reference limit (streamOf reads)) n) ∧
      ∀ reads later, Passes limit {} reads later → later.buf.length ≤ limit := by
  refine ⟨calls_eq unbroken, fun reads later passes => ?_⟩
  obtain ⟨gathered, holds⟩ := passes.holds (.start limit)
  exact holds.bounded

def shared : List Read := [.slice 97 [98], .interrupted, .slice 99 [], .slice 100 [10, 120, 13, 10], .slice 121 []]

theorem lineReader_refines_shared :
    calls 3 4 shared = answers (reference 3 [97, 98, 99, 100, 10, 120, 13, 10, 121]) 4 ∧
      ∀ later, Passes 3 {} shared later → later.buf.length ≤ 3 := by
  have unbroken : Unbroken shared := fun kind member => by simp [shared] at member
  obtain ⟨results, bounded⟩ := lineReader_refines 3 unbroken
  exact ⟨results 4, fun later passes => bounded shared later passes⟩

example : calls 3 4 shared = [.ok (.oversized 4), .ok (.text "x"), .ok (.text "y"), .ok .eof] := by decide

end Framing

end NexTerminal.Daemon
