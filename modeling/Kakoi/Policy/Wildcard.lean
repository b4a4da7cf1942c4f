import Kakoi.Base.Path

/-! The wildcards of a policy: `*` for any run of bytes and `?` for one byte. -/

namespace Kakoi

/-- The run given to the last `*`: the pattern behind it, and the text from where the
run ends so far. -/
structure Star where
  pattern : Name
  text : Name

/-- The loop of `matches_bytes` on what is left of the pattern and of the text. -/
def matchLoop : Nat → Name → Name → Option Star → Bool
  | 0, _, _, _ => false
  | _ + 1, pattern, [], _ => pattern.all (· == 42)
  | steps + 1, pattern, byte :: rest, star =>
    -- A mismatch gives the most recent `*` one byte more.
    let retry :=
      match star with
      | some star =>
        matchLoop steps star.pattern star.text.tail (some { star with text := star.text.tail })
      | none => false
    match pattern with
    | [] => retry
    | wanted :: more =>
      if wanted = 42 then matchLoop steps more (byte :: rest) (some ⟨more, byte :: rest⟩)
      else if wanted = 63 || wanted = byte then matchLoop steps more rest star
      else retry

/-- Between two mismatches the pattern only shrinks, and a mismatch moves the text of the
last `*` on, so this many steps are enough. -/
def matchSteps (pattern text : Name) : Nat := (pattern.length + 2) * (text.length + 2)

/-- Whether a text matches a pattern, byte by byte. -/
def wildcardMatches (pattern : String) (text : Name) : Bool :=
  matchLoop (matchSteps (utf8 pattern) text) (utf8 pattern) text none

example : wildcardMatches "*.e?v*" (utf8 "a.b.envrc") = true := by decide +kernel

end Kakoi
