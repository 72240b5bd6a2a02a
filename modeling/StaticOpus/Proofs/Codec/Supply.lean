import StaticOpus.Codec

/-!
# The replies that a codec has left

A codec has a stream of sizes for each mode and a stream of codes. A question takes the next reply
of one of them and leaves the others alone, so what is left is told by the number of questions of
each kind.

## Implementation notes

The last reply of a stream stays, so streams are compared by the replies that they give to each
question from now on, and not as lists.
-/

namespace StaticOpus

namespace Replies

/-- The reply that a stream gives to its question number `n` from now on, if it gives any: after its
end the last reply stays. -/
def nth (replies : Replies) (n : Nat) : Option Int32 := replies[min n (replies.length - 1)]?

theorem next_reply (replies : Replies) : (next replies).1 = replies.nth 0 := by
  match replies with
  | [] => rfl
  | [_] => rfl
  | _ :: _ :: _ => rfl

/-- Each question moves the stream on by one. -/
theorem nth_next (replies : Replies) (n : Nat) : (next replies).2.nth n = replies.nth (n + 1) := by
  match replies with
  | [] => rfl
  | [_] => simp [next, nth]
  | _ :: second :: rest =>
      have place : min (n + 1) (rest.length + 1) = min n rest.length + 1 := by omega
      simp [next, nth, place]

end Replies

namespace Codec

/-- The size that a codec reports to its question number `n` about a mode from now on. -/
def sizeAt (codec : Codec) (mode : Mode) (n : Nat) : Int32 := ((codec.sizes mode).nth n).getD 0

/-- The code that a codec gives to its set-up number `n` from now on, if that is for this rate. -/
def codeAt (codec : Codec) (rate : Int32) (n : Nat) : Int32 :=
  (codec.initCodes.nth n).getD (if rate ∈ sampleRates then ok else badArgument)

theorem askSize_reply (mode : Mode) (codec : Codec) :
    (codec.askSize mode).1 = codec.sizeAt mode 0 :=
  congrArg (Option.getD · 0) (Replies.next_reply _)

theorem askInit_reply (rate : Int32) (codec : Codec) :
    (codec.askInit rate).1 = codec.codeAt rate 0 :=
  congrArg (Option.getD · _) (Replies.next_reply _)

/-- The codec `after` has given this many sizes for each mode and this many codes since it was
`before`, and nothing else about it has changed. -/
structure Spent (before after : Codec) (sizes : Mode → Nat) (codes : Nat) : Prop where
  sizes : ∀ mode n, (after.sizes mode).nth n = (before.sizes mode).nth (n + sizes mode)
  codes : ∀ n, after.initCodes.nth n = before.initCodes.nth (n + codes)
  version : after.version = before.version
  texts : after.texts = before.texts

namespace Spent

variable {before middle after : Codec} {sizes more : Mode → Nat} {codes others : Nat}

theorem trans (first : Spent before middle sizes codes) (second : Spent middle after more others) :
    Spent before after (fun mode => sizes mode + more mode) (codes + others) where
  sizes mode n := by
    rw [second.sizes, first.sizes]
    congr 1
    omega
  codes n := by
    rw [second.codes, first.codes]
    congr 1
    omega
  version := second.version.trans first.version
  texts := second.texts.trans first.texts

end Spent

theorem sizes_askSize (asked mode : Mode) (codec : Codec) :
    (codec.askSize asked).2.sizes mode =
      if mode = asked then (Replies.next (codec.sizes mode)).2 else codec.sizes mode := by
  cases asked <;> cases mode <;> rfl

/-- A question about a size takes one reply about its mode. -/
theorem spent_askSize (asked : Mode) (codec : Codec) :
    Spent codec (codec.askSize asked).2 (fun mode => if mode = asked then 1 else 0) 0 where
  sizes mode n := by
    rw [sizes_askSize]
    split
    · exact Replies.nth_next _ n
    · rfl
  codes n := by cases asked <;> rfl
  version := by cases asked <;> rfl
  texts := by cases asked <;> rfl

/-- A set-up by the codec takes one code. -/
theorem spent_askInit (rate : Int32) (codec : Codec) :
    Spent codec (codec.askInit rate).2 (fun _ => 0) 1 where
  sizes mode n := by cases mode <;> rfl
  codes := Replies.nth_next _
  version := rfl
  texts := rfl

end Codec

end StaticOpus
