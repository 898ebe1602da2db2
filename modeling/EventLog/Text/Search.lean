/-!
# EventLog.Text.Search

Texts inside other texts.

* `behind?_append`: a text that stands in front is taken off.
* `eq_append_of_behind?`: nothing else is taken off.
-/

namespace EventLog.Text

/-- A text behind another one, if it starts with it. -/
def behind? : List Char → List Char → Option (List Char)
  | [], text => some text
  | _ :: _, [] => none
  | c :: front, d :: text => if c = d then behind? front text else none

/-- The text behind the first place where another text stands. -/
def behindFirst? (wanted : List Char) : List Char → Option (List Char)
  | [] => behind? wanted []
  | c :: rest => (behind? wanted (c :: rest)).or (behindFirst? wanted rest)

/-- The text behind the last place where another text stands. -/
def behindLast? (wanted : List Char) : List Char → Option (List Char)
  | [] => behind? wanted []
  | c :: rest => (behindLast? wanted rest).or (behind? wanted (c :: rest))

/-- A text that stands in front is taken off. -/
theorem behind?_append (front text : List Char) : behind? front (front ++ text) = some text := by
  induction front with
  | nil => rfl
  | cons c front ih => simp [behind?, ih]

/-- Nothing else is taken off. -/
theorem eq_append_of_behind? {front text rest : List Char} (h : behind? front text = some rest) :
    text = front ++ rest := by
  induction front generalizing text with
  | nil => simpa [behind?] using h
  | cons c front ih =>
    cases text with
    | nil => simp [behind?] at h
    | cons d text =>
      by_cases hc : c = d
      · simp only [behind?, hc, if_true] at h
        simp [hc, ih h]
      · simp [behind?, hc] at h

end EventLog.Text
