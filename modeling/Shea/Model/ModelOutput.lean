import Shea.Model.World

/-!
# The JSON object in the output of a model

`_extract_json_object` of `model/model_compatible.py`. The decoder is the one of the standard library, so
it is a parameter here.
-/

set_option autoImplicit false

namespace Shea.Model

/-- What comes of `raw_decode(text, index)`. -/
inductive RawDecode
  /-- It returns what it parsed, and the index behind it. -/
  | parsed (value : Value) (stop : ℕ)
  | jsonDecodeError
  | raised (error : Err)
  deriving DecidableEq

/-- `text.find(letter, start)`; `none` is its `-1`. -/
def findFrom (text : String) (letter : Char) (start : ℕ) : Option ℕ :=
  ((text.toList.drop start).findIdx? (· = letter)).map (start + ·)

section Extract

variable (rawDecode : String → ℕ → RawDecode) (text : String)

/-- The loop, with a number of rounds that it may take at most. -/
def scanForObject : ℕ → Option ℕ → Option (Except Err (Option (Dict × ℕ × ℕ)))
  | _, none => some (.ok none)
  | 0, some _ => none
  | fuel + 1, some index =>
      match rawDecode text index with
      | .parsed (.dict entries) stop => some (.ok (some (entries, index, stop)))
      | .parsed _ _ => scanForObject fuel (findFrom text '\x7b' (index + 1))
      | .jsonDecodeError => scanForObject fuel (findFrom text '\x7b' (index + 1))
      | .raised error => some (.error error)

/-- `_extract_json_object`. -/
def extractJsonObject (fuel : ℕ) : Option (Except Err (Option (Dict × ℕ × ℕ))) :=
  scanForObject rawDecode text fuel (findFrom text '\x7b' 0)

end Extract

end Shea.Model
