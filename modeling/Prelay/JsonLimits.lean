import Prelay.JsonRoundTrip

namespace Prelay.Json.Text

/-- The text format with a recursion limit and a reader of floats that is not exact. -/
def limited (f : Number → Number) : SerdeJson where
  toStr := toStr
  fromStr s := ((fromStr s).filter (fun v => v.depth < recursionLimit)).map (Value.mapNumbers f)

-- a significand of more than 53 bits is rounded before it is divided by the power of ten
def rounded : Number → Number
  | .float false 57295779513082316 (-15) => .float false 5729577951308232 (-14)
  | n => n

theorem rounded_keepsIntegers : KeepsIntegers rounded where
  posInt _ := rfl
  negInt _ := rfl
  float negative digits exponent := by
    unfold rounded
    split
    · exact ⟨_, _, _, rfl⟩
    · exact ⟨_, _, _, rfl⟩

section limited

variable {f : Number → Number}

theorem limited_fromStr (v : Value) :
    (limited f).fromStr ((limited f).toStr v) =
      if v.normalize.depth < recursionLimit then some (v.normalize.mapNumbers f) else none := by
  simp only [limited, fromStr_toStr, Option.filter, decide_eq_true_eq]
  split_ifs <;> rfl

theorem limited_reread (n : Number) : (limited f).reread n = f n := by
  rw [SerdeJson.reread, limited_fromStr]
  rfl

theorem limited_lawful (hf : KeepsIntegers f) : (limited f).Lawful where
  reads v hdepth := by
    rw [limited_fromStr, if_pos ((Value.depth_normalize_le v).trans_lt hdepth)]
    rfl
  read_eq v w hw := by
    rw [limited_fromStr] at hw
    split_ifs at hw
    rw [← Option.some.inj hw]
    congr 1
    funext n
    exact (limited_reread n).symm
  keepsIntegers := by
    rw [show (limited f).reread = f from funext limited_reread]
    exact hf
  no_control := codec_lawful.no_control

theorem limited_refuses : (limited f).Refuses := by
  intro v hdepth
  rw [limited_fromStr, if_neg hdepth.not_gt]

end limited

end Prelay.Json.Text
