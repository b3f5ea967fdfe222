import Mathlib.Tactic.Linarith
import Lsvmi.InternalMetrics.Execute

/-!
# The byte count of the internal metrics

The last line that `Execute` writes has the size of the whole buffer for its value, so the number
counts its own digits.
-/

namespace Lsvmi.InternalMetrics

open List

def byteCountLoop64 : Nat → Int64 → Int64 → Int64
  | 0, _, n => n
  | fuel + 1, pow10, n => if pow10 ≤ n then byteCountLoop64 fuel (pow10 * 10) (n + 1) else n

theorem length_formatUint {n k : Nat} (hlow : 10 ^ k ≤ n) (hhigh : n < 10 ^ (k + 1)) :
    (formatUint n).length = k + 1 := by
  rw [formatUint, length_map]
  have hle := (Nat.length_toDigits_le_iff (by decide) (Nat.succ_pos k)).mpr hhigh
  cases k with
  | zero =>
    have hpos := length_pos_iff.mpr (Nat.toDigits_ne_nil (b := 10) (n := n))
    omega
  | succ k =>
    have hlt := mt (Nat.length_toDigits_le_iff (by decide) (Nat.succ_pos k)).mp (Nat.not_lt.mpr hlow)
    omega

/-- The number of rounds of the loop that starts with `l + 1`. -/
structure Rounds (l k : Nat) : Prop where
  more : ∀ j < k, 10 ^ (j + 1) ≤ l + 1 + j
  done : l + 1 + k < 10 ^ (k + 1)

theorem exists_rounds (l : Nat) : ∃ k, Rounds l k ∧ k ≤ l := by
  have hlast : l + 1 + l < 10 ^ (l + 1) := by
    induction l with
    | zero => decide
    | succ l ih => rw [pow_succ]; omega
  have hex : ∃ k, l + 1 + k < 10 ^ (k + 1) := ⟨l, hlast⟩
  refine ⟨Nat.find hex, ⟨fun j hj => Nat.not_lt.mp (Nat.find_min hex hj), Nat.find_spec hex⟩, ?_⟩
  exact Nat.find_min' hex hlast

namespace Rounds

variable {l k : Nat} (h : Rounds l k)
include h

theorem pow_le : 10 ^ k ≤ l + 1 + k := by
  cases k with
  | zero => rw [pow_zero]; omega
  | succ k => have := h.more k (Nat.lt_succ_self k); omega

theorem byteCountLoop_eq {fuel j : Nat} (hj : j ≤ k) (hfuel : k ≤ fuel + j) :
    byteCountLoop fuel (10 ^ (j + 1)) (l + 1 + j) = l + 1 + k := by
  induction fuel generalizing j with
  | zero =>
    rw [byteCountLoop]
    omega
  | succ fuel ih =>
    rw [byteCountLoop]
    by_cases hjk : j < k
    · rw [if_pos (h.more j hjk), ← pow_succ]
      exact ih hjk (by omega)
    · obtain rfl : j = k := by omega
      rw [if_neg (Nat.not_le.mpr h.done)]

theorem byteCountLoop64_eq (hk : k ≤ 17) {fuel j : Nat} (hj : j ≤ k) (hfuel : k ≤ fuel + j) :
    byteCountLoop64 fuel (Int64.ofNat (10 ^ (j + 1))) (Int64.ofNat (l + 1 + j)) =
      Int64.ofNat (l + 1 + k) := by
  have hpow : ∀ i ≤ k, 10 ^ (i + 1) ≤ 10 ^ 18 :=
    fun i hi => Nat.pow_le_pow_right (by decide) (by omega)
  have hle : ∀ i ≤ k, (Int64.ofNat (10 ^ (i + 1)) ≤ Int64.ofNat (l + 1 + i) ↔
      10 ^ (i + 1) ≤ l + 1 + i) := by
    intro i hi
    have := h.done
    have := hpow i hi
    have := hpow k (Nat.le_refl k)
    exact Int64.ofNat_le_iff_le (by omega) (by omega)
  induction fuel generalizing j with
  | zero =>
    obtain rfl : j = k := by omega
    rw [byteCountLoop64]
  | succ fuel ih =>
    rw [byteCountLoop64]
    by_cases hjk : j < k
    · rw [if_pos ((hle j hj).mpr (h.more j hjk))]
      have hmul : Int64.ofNat (10 ^ (j + 1)) * 10 = Int64.ofNat (10 ^ (j + 1 + 1)) := by
        rw [pow_succ 10 (j + 1), Int64.ofNat_mul]
        rfl
      have hadd : Int64.ofNat (l + 1 + j) + 1 = Int64.ofNat (l + 1 + (j + 1)) := by
        rw [← Nat.add_assoc, Int64.ofNat_add (l + 1 + j) 1]
        rfl
      rw [hmul, hadd]
      exact ih hjk (by omega)
    · obtain rfl : j = k := by omega
      rw [if_neg (mt (hle j hj).mp (Nat.not_le.mpr h.done))]

theorem le_of_lt (hl : l + 18 < 1000000000000000000) : k ≤ 17 := by
  by_contra hk
  have := h.more 17 (by omega)
  omega

omit h

theorem length_eq {buf tsSuffix : Bytes} {k : Nat}
    (h : Rounds (buf.length + tsSuffix.length + 1) k) :
    (buf ++ formatUint (buf.length + tsSuffix.length + 1 + 1 + k) ++ tsSuffix ++ utf8 "\n").length =
      buf.length + tsSuffix.length + 1 + 1 + k := by
  have hdigits := length_formatUint h.pow_le h.done
  have hnl : (utf8 "\n").length = 1 := rfl
  rw [length_append, length_append, length_append, hdigits, hnl]
  omega

end Rounds

/-- The loop ends with the length that the buffer has once the number, the suffix and the newline are
written, also with 64 bits as long as the buffer is below 10 ^ 18 bytes. -/
theorem queued_length_eq_byteCount (buf tsSuffix : Bytes) :
    ∃ n, (buf ++ formatUint n ++ tsSuffix ++ utf8 "\n").length = n ∧
      ∀ fuel, buf.length + tsSuffix.length + 1 ≤ fuel →
        byteCountLoop fuel 10 (buf.length + tsSuffix.length + 1 + 1) = n ∧
        (buf.length + tsSuffix.length + 19 < 1000000000000000000 →
          byteCountLoop64 fuel 10 (Int64.ofNat (buf.length + tsSuffix.length + 1 + 1)) =
            Int64.ofNat n) := by
  obtain ⟨k, hrounds, hle⟩ := exists_rounds (buf.length + tsSuffix.length + 1)
  refine ⟨_, hrounds.length_eq, fun fuel hfuel => ⟨?_, fun hlt => ?_⟩⟩
  · exact hrounds.byteCountLoop_eq (Nat.zero_le k) (by omega)
  · exact hrounds.byteCountLoop64_eq (hrounds.le_of_lt (by omega)) (Nat.zero_le k) (by omega)

/-- Nine bytes without the number: with one digit they would be ten, so there are eleven. -/
theorem queued_length_eq_byteCount_eleven :
    byteCountLoop 9 10 10 = 11 ∧ byteCountLoop64 9 10 10 = 11 ∧
      (utf8 "bytes " ++ formatUint 11 ++ utf8 " 1" ++ utf8 "\n").length = 11 := by
  obtain ⟨n, hlen, hloop⟩ := queued_length_eq_byteCount (utf8 "bytes ") (utf8 " 1")
  obtain ⟨hn, hn64⟩ := hloop 9 (by decide)
  obtain rfl : n = 11 := hn.symm.trans (by decide)
  exact ⟨hn, hn64 (by decide), hlen⟩

theorem ownSamples_eq (cfg : Config) (tsSuffix buf : Bytes) (metricsCount : Nat) : ∃ counts l,
    (∀ s ∈ counts, s.stat ≠ .bytesCount) ∧
    l = (buf ++ counts.flatMap (GenSample.text cfg tsSuffix) ++
      metricsCache cfg internalMetricsId .bytesCount).length + tsSuffix.length + 1 ∧
    ownSamples cfg tsSuffix buf metricsCount =
      counts ++ [⟨internalMetricsId, .bytesCount, byteCountLoop (l + 1) 10 (l + 1)⟩] := by
  refine ⟨_, _, ?_, ?_, rfl⟩
  · rw [forall_mem_cons, forall_mem_cons, forall_mem_singleton]
    exact ⟨nofun, nofun, nofun⟩
  · rw [length_append, length_append]

section

variable (cfg : Config) (metricsGenStats : MetricsGeneratorStats) (surr : Surroundings)

def bufBeforeOwn : Bytes :=
  surr.front.text ++
    (genSamples metricsGenStats surr.order).flatMap (GenSample.text cfg surr.tsSuffix) ++ surr.os.text

def countBeforeOwn : Nat :=
  surr.front.metricsCount + (genSamples metricsGenStats surr.order).length + surr.os.metricsCount

def ownPublished : List GenSample :=
  ownSamples cfg surr.tsSuffix (bufBeforeOwn cfg metricsGenStats surr)
    (countBeforeOwn metricsGenStats surr)

theorem publishedSamples_eq : publishedSamples cfg metricsGenStats surr =
    genSamples metricsGenStats surr.order ++ ownPublished cfg metricsGenStats surr := rfl

def queuedBuf : Bytes :=
  bufBeforeOwn cfg metricsGenStats surr ++
    (ownPublished cfg metricsGenStats surr).flatMap (GenSample.text cfg surr.tsSuffix) ++ utf8 "\n"

theorem bytesCount_eq_length_queuedBuf : ∀ s ∈ ownPublished cfg metricsGenStats surr,
    s.stat = .bytesCount → s.value = (queuedBuf cfg metricsGenStats surr).length := by
  intro s hs hstat
  rw [ownPublished] at hs
  rw [queuedBuf, ownPublished]
  obtain ⟨counts, l, hcounts, hl, heq⟩ := ownSamples_eq cfg surr.tsSuffix
    (bufBeforeOwn cfg metricsGenStats surr) (countBeforeOwn metricsGenStats surr)
  obtain ⟨k, hrounds, hle⟩ := exists_rounds l
  have hn : byteCountLoop (l + 1) 10 (l + 1) = l + 1 + k :=
    hrounds.byteCountLoop_eq (Nat.zero_le k) (by omega)
  rw [heq, hn] at hs ⊢
  have hlast := (mem_append.mp hs).resolve_left fun hmem => hcounts s hmem hstat
  rw [mem_singleton.mp hlast, flatMap_append, flatMap_singleton, GenSample.text]
  subst hl
  refine hrounds.length_eq.symm.trans ?_
  simp only [append_assoc]

end

end Lsvmi.InternalMetrics
