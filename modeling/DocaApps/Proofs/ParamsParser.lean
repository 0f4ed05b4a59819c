import DocaApps.Common.ParamsParser
import DocaApps.Proofs.Strtol

namespace DocaApps.Proofs.ParamsParser
open Common.FlowParser Common.StructParser Common.ParamsParser Lib.CStrings Lib.Numerals
open Proofs.Strtol

variable {text rest s : List Char} {n : Nat}

theorem strtoull_eq (h : CNumber text n) (hrest : Ends rest) :
    strtoull (text ++ rest) 0 = (clampUlong 1 n, rest) := by
  obtain ⟨base, digits, hbase, hle, number⟩ := numberBase_number h hrest
  obtain ⟨htake, hdrop⟩ := scan_number number hle hrest
  rw [strtoull, if_neg (by decide)]
  simp only [signed_number h, hbase, htake, hdrop]
  cases digits with
  | nil => exact absurd rfl number.nonempty
  | cons d ds => simp [number.value]

theorem clampUlong_of_lt (hn : n < 2 ^ 64) : clampUlong 1 n = n := by
  unfold clampUlong
  rw [if_neg (by omega)]
  omega

theorem afterKey_append (key : String) (s : List Char) :
    afterKey key (key.toList ++ s) = some s := by
  rw [afterKey, if_pos (by simp [List.isPrefixOf_iff_prefix]), List.drop_left]

/-- The port of an added entry is cut to sixteen bits. -/
theorem parseFwAddEntryParams_number (h : CNumber text n)
    (hlen : text.length < maxCmdlineInputLen) :
    parseFwAddEntryParams ("port_id=".toList ++ text) = .ok (UInt16.ofNat (clampUlong 1 n)) := by
  have hnumber : strtoull (text ++ []) 0 = (clampUlong 1 n, []) :=
    strtoull_eq h (by simp [Ends])
  rw [List.append_nil] at hnumber
  simp only [parseFwAddEntryParams, afterKey_append, strlcpy_of_short hlen, hnumber]

end DocaApps.Proofs.ParamsParser
