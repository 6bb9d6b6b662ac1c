import Turnstile.Proofs.Gate.Holdings
import Turnstile.Proofs.Quota.Account
import Turnstile.Proofs.Quota.Later
import Turnstile.Proofs.Quota.Words

/-!
# How long a gate keeps its records

Every record is written with a time to live.  For most of them that is one of the gate's settings.
The requests of a fixed window and the violations of a day or a minute are counted until an instant
that the record says, so they live as long as they should only if the record is timely: if its
window has started by now, and if it is over within a day.  What is found in a store may be dated
ahead of the clock.  So there is an instant besides the one at which things are written: the latest
from which records may be, which the clock has not passed.

* `Gate.spans`, `Gate.lifespan`: the times to live of the settings, and the longest of them.
* `Holding.Timely`: records as they are at an instant, and as they stay.
* `Holding.timely_maxWord`: at the last instant that there is, every record is so.
* `Gate.timely_of_writes`, `Holding.timely_reread`: what is written is timely, however it is read.
* `Gate.spanned_of_writes`, `Gate.brief_of_writes`: what decisions are made from is written for the
  spans of the settings, and nothing for longer than the lifespan.
-/

set_option autoImplicit false

namespace Turnstile

open Violation

/-! ## The settings -/

namespace Gate

/-- The spans in milliseconds for which the settings of a gate keep circuits, windows and blocks. -/
def spans (g : Gate) : List Nat :=
  g.breaker.settings.recordTtl.wholeMillis ::
    g.policies.policies.flatMap fun p => [p.window.toNat + 1000, (p.block.getD 0).toNat]

/-- The longest span in milliseconds for which a gate keeps anything: a day, or what the settings
say. -/
def lifespan (g : Gate) : Nat := g.spans.foldr max dayMillis.toNat

variable {g : Gate} {p : Policy}

theorem le_lifespan (g : Gate) :
    dayMillis.toNat ≤ g.lifespan ∧ ∀ n ∈ g.spans, n ≤ g.lifespan := by
  unfold lifespan
  generalize g.spans = spans
  induction spans with
  | nil => exact ⟨Nat.le_refl _, nofun⟩
  | cons n spans ih =>
    rw [List.foldr_cons]
    refine ⟨Nat.le_trans ih.1 (Nat.le_max_right _ _), List.forall_mem_cons.mpr ⟨?_, fun m hm => ?_⟩⟩
    · exact Nat.le_max_left _ _
    · exact Nat.le_trans (ih.2 m hm) (Nat.le_max_right _ _)

theorem recordTtl_mem_spans (g : Gate) : g.breaker.settings.recordTtl.wholeMillis ∈ g.spans :=
  List.mem_cons_self

theorem window_mem_spans (hp : p ∈ g.policies.policies) : p.window.toNat + 1000 ∈ g.spans :=
  List.mem_cons_of_mem _ (List.mem_flatMap.mpr ⟨p, hp, List.mem_cons_self⟩)

theorem block_mem_spans (hp : p ∈ g.policies.policies) {length : UInt64}
    (hblock : p.block = some length) : length.toNat ∈ g.spans := by
  refine List.mem_cons_of_mem _ (List.mem_flatMap.mpr ⟨p, hp, ?_⟩)
  rw [hblock]
  exact List.mem_cons_of_mem _ List.mem_cons_self

end Gate

/-! ## Timely records -/

namespace Holding

/-- The kinds of records that decisions are made from. -/
def Decides (h : Holding) : Prop := h = circuit ∨ h.Limits ∨ h = block

instance (h : Holding) : Decidable h.Decides := inferInstanceAs (Decidable (_ ∨ _))

/-- No window has a request after an instant, and no counter runs for longer than a day from it. -/
def Timely (now : UInt64) : (h : Holding) → h.Record → Prop
  | window, c => c.start ≤ now
  | log, l => ∀ time ∈ l.times, time ≤ now
  | counter, c => c.endsAt.toNat ≤ now.toNat + dayMillis.toNat
  | _, _ => True

variable {now : UInt64} {h k : Holding}

theorem Timely.mono {later : UInt64} (hle : now ≤ later) {a : h.Record} (ha : h.Timely now a) :
    h.Timely later a := by
  cases h with
  | window => exact UInt64.le_trans ha hle
  | log => exact fun time htime => UInt64.le_trans (ha time htime) hle
  | counter =>
    have hle : now.toNat ≤ later.toNat := hle
    have ha : a.endsAt.toNat ≤ now.toNat + dayMillis.toNat := ha
    show a.endsAt.toNat ≤ later.toNat + dayMillis.toNat
    omega
  | _ => trivial

/-- No word is past the last instant, so every record is timely there. -/
theorem timely_maxWord (a : h.Record) : h.Timely maxWord a := by
  cases h with
  | window => exact le_maxWord a.start
  | log => exact fun time _ => le_maxWord time
  | counter => exact Nat.le_trans (toNat_le_max a.endsAt) (Nat.le_add_right _ _)
  | _ => trivial

/-- A window that is read in timely words is timely, whichever kind wrote them. -/
theorem timely_words {count : UInt64} {times : List UInt64} (htimes : ∀ time ∈ times, time ≤ now)
    (hk : k.Limits) {b : k.Record} (hread : Binary.read? (Binary.words (count :: times)) = some b) :
    k.Timely now b := by
  obtain rfl | rfl := hk
  · cases times with
    | nil => cases (WindowCounter.read?_word count).symm.trans hread
    | cons start rest =>
      cases (WindowCounter.read?_words count start rest).symm.trans hread
      exact htimes start List.mem_cons_self
  · have hread := (SlidingLog.read?_words count times).symm.trans hread
    split at hread
    · cases hread
      exact fun time htime => htimes time (List.mem_of_mem_take htime)
    · cases hread

/-- **What is written is timely however it is read.** -/
theorem timely_reread {name : String} (hh : h.Named name) (hk : k.Named name) {a : h.Record}
    (ha : h.Timely now a) {b : k.Record} (hread : Binary.read? (Binary.encode a) = some b) :
    k.Timely now b := by
  have hlimits (hh : h.Limits) (hk : k.Limits) : k.Timely now b := by
    obtain rfl | rfl := hh
    · exact timely_words (List.forall_mem_singleton.mpr ha) hk (WindowCounter.encode_eq a ▸ hread)
    · exact timely_words ha hk hread
  obtain rfl | ⟨hh, hk⟩ := eq_of_named hh hk
  · cases h with
    | window | log => exact hlimits (by decide) (by decide)
    | counter =>
      cases (Binary.read?_encode (Counter.exact a)).symm.trans hread
      exact ha
    | _ => trivial
  · exact hlimits hh hk

end Holding

/-! ## What is written -/

namespace Gate

variable {g : Gate} {now latest : UInt64} {h : Holding} {read : Option h.Record} {a : h.Record}
  {ttl : Duration}

section

variable (hle : now ≤ latest)

include hle

theorem timely_counter {read : Option Counter}
    (hread : ∀ r ∈ read, Holding.counter.Timely latest r) {ttl : Duration}
    (httl : ttl = Monitor.day ∨ ttl = Monitor.minute) :
    Holding.counter.Timely latest (Counter.next read now ttl) := by
  rw [UInt64.le_iff_toNat_le] at hle
  have hmillis : ttl.millis.toNat ≤ dayMillis.toNat := by
    obtain rfl | rfl := httl <;> decide
  have hopened : Holding.counter.Timely latest (Counter.opened now ttl) := by
    show (satAdd now ttl.millis).toNat ≤ latest.toNat + dayMillis.toNat
    rw [toNat_satAdd]
    omega
  unfold Counter.next
  split
  · rename_i c
    split
    · exact hread c rfl
    · exact hopened
  · exact hopened

theorem timely_log {p : Policy} {read : Option SlidingLog}
    (hread : ∀ r ∈ read, Holding.log.Timely latest r) :
    Holding.log.Timely latest ((read.getD .empty).next p now) :=
  SlidingLog.times_next_le hle (SlidingLog.times_getD_le hread)

/-- **What is put together from timely records is timely.** -/
theorem timely_of_writes (hw : g.Writes now h read a ttl) (hread : ∀ r ∈ read, h.Timely latest r) :
    h.Timely latest a := by
  cases hw with
  | window _ => exact WindowCounter.start_next_le hle hread
  | log _ => exact timely_log hle hread
  | counter _ httl => exact timely_counter hle hread httl
  | _ => trivial

/-- What decisions are made from is written for a span of the settings at most, counted from the
latest instant that records may be from. -/
theorem spanned_of_writes (hh : h.Decides) (hw : g.Writes now h read a ttl)
    (hread : ∀ r ∈ read, h.Timely latest r) :
    ∃ n ∈ g.spans, now.toNat + ttl.millis.toNat ≤ latest.toNat + n := by
  have hlater : now.toNat ≤ latest.toNat := UInt64.le_iff_toNat_le.mp hle
  cases hw with
  | circuit =>
    refine ⟨_, g.recordTtl_mem_spans, ?_⟩
    rw [Duration.millis, toNat_wordOfNat]
    omega
  | @window p hp read =>
    have hstart : (WindowCounter.next read p now).start ≤ latest :=
      WindowCounter.start_next_le hle hread
    rw [UInt64.le_iff_toNat_le] at hstart
    refine ⟨_, window_mem_spans hp, ?_⟩
    rw [Duration.millis_ofMillis, toNat_satSub, WindowCounter.resetAt, Policy.windowEnd,
      toNat_satAdd]
    omega
  | @log p hp =>
    refine ⟨_, window_mem_spans hp, ?_⟩
    rw [Account.toNat_millis_logSpan]
    omega
  | block hp hblock =>
    refine ⟨_, block_mem_spans hp hblock, ?_⟩
    rw [Duration.millis_ofMillis]
    omega
  | outcomes | roster | counter => exact absurd hh (by decide)

/-- **Nothing is written for longer than the lifespan**, counted from there. -/
theorem brief_of_writes (hw : g.Writes now h read a ttl) (hread : ∀ r ∈ read, h.Timely latest r) :
    now.toNat + ttl.millis.toNat ≤ latest.toNat + g.lifespan := by
  by_cases hh : h.Decides
  · obtain ⟨n, hn, hspan⟩ := spanned_of_writes hle hh hw hread
    exact Nat.le_trans hspan (Nat.add_le_add_left (g.le_lifespan.2 n hn) _)
  have hday := g.le_lifespan.1
  have hlater : now.toNat ≤ latest.toNat := UInt64.le_iff_toNat_le.mp hle
  cases hw with
  | outcomes | roster =>
    refine Nat.add_le_add hlater (Nat.le_trans ?_ hday)
    decide
  | counter _ httl =>
    have hends := timely_counter hle hread httl
    rw [Holding.Timely] at hends
    rw [Duration.millis_ofMillis, toNat_satSub]
    omega
  | circuit | window | log | block => exact absurd (by decide) hh

end

end Gate

end Turnstile
