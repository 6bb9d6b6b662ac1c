import Turnstile.Proofs.Storage.RoundTrip
import Turnstile.Quota.Window

/-!
# Windows as words

A counter of a window and a log of requests are both kept as words: a counter as its hits and its
start, a log as its length and its times.  Names of policies may run into keys of trackers, so that
a counter is kept where a log is looked for; what is read there is known as well.

* `Binary.words`: some words one after the other.
* `WindowCounter.encode_eq`, `SlidingLog.encode_eq`: what is written.
* `WindowCounter.read?_words`, `SlidingLog.read?_words`: what is read in words, whoever wrote them.
-/

set_option autoImplicit false

namespace Turnstile

namespace Binary

/-- Words, one after the other. -/
def words (ws : List UInt64) : Bytes := ws.flatMap encode

theorem words_cons (w : UInt64) (ws : List UInt64) : words (w :: ws) = encode w ++ words ws := rfl

theorem decode_words_nil : (decode (words []) : Option (UInt64 × Bytes)) = none := rfl

theorem decode_words_cons (w : UInt64) (ws : List UInt64) :
    decode (words (w :: ws)) = some (w, words ws) := by
  rw [words_cons, exact_word w]

/-- A number of words is read if there are so many. -/
theorem decodeItems_words (count : Nat) (ws : List UInt64) :
    decodeItems count (words ws) =
      if count ≤ ws.length then some (ws.take count, words (ws.drop count)) else none := by
  induction count generalizing ws with
  | zero => rfl
  | succ count ih =>
    cases ws with
    | nil => simp only [decodeItems, decode_words_nil]; rfl
    | cons w ws =>
      simp only [decodeItems, decode_words_cons, ih, Option.bind_eq_bind, Option.bind_some]
      by_cases h : count ≤ ws.length <;> simp [h]

end Binary

open Binary

theorem WindowCounter.encode_eq (c : WindowCounter) : encode c = words [c.hits, c.start] := by
  show encode c.hits ++ encode c.start = _
  simp [words]

theorem WindowCounter.read?_words (hits start : UInt64) (rest : List UInt64) :
    (read? (words (hits :: start :: rest)) : Option WindowCounter) = some ⟨hits, start⟩ := by
  have hpair : (decode (words (hits :: start :: rest)) : Option ((UInt64 × UInt64) × Bytes)) =
      some ((hits, start), words rest) := by
    show (decode (words (hits :: start :: rest))).bind _ = _
    rw [decode_words_cons, Option.bind_some]
    show (decode (words (start :: rest))).bind _ = _
    rw [decode_words_cons, Option.bind_some]
  show (Option.bind (decode (words (hits :: start :: rest))) _).map _ = _
  rw [hpair]
  rfl

/-- One word is not enough for a counter. -/
theorem WindowCounter.read?_word (hits : UInt64) :
    (read? (words [hits]) : Option WindowCounter) = none := by
  have hpair : (decode (words [hits]) : Option ((UInt64 × UInt64) × Bytes)) = none := by
    show (decode (words [hits])).bind _ = _
    rw [decode_words_cons, Option.bind_some]
    rfl
  show (Option.bind (decode (words [hits])) _).map _ = _
  rw [hpair]
  rfl

theorem SlidingLog.encode_eq (l : SlidingLog) :
    encode l = words (UInt64.ofNat l.times.length :: l.times) := rfl

theorem SlidingLog.read?_words (count : UInt64) (times : List UInt64) :
    (read? (words (count :: times)) : Option SlidingLog) =
      if count.toNat ≤ times.length then some ⟨times.take count.toNat⟩ else none := by
  have hlist : (decode (words (count :: times)) : Option (List UInt64 × Bytes)) =
      decodeItems count.toNat (words times) := by
    show (decodeLength (words (count :: times))).bind _ = _
    rw [decodeLength, decode_words_cons]
    rfl
  show (Option.bind (decode (words (count :: times))) _).map _ = _
  rw [hlist, decodeItems_words]
  by_cases h : count.toNat ≤ times.length
  · rw [if_pos h, if_pos h]
    rfl
  · rw [if_neg h, if_neg h]
    rfl

end Turnstile
