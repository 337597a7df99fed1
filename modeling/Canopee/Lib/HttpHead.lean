import Canopee.Lib.Text

/-!
This module contains the head of an HTTP/1.1 response as a text: how it is written, and how a client
reads it.
-/

namespace HttpHead

def crlf : List Char := ['\r', '\n']

def renderField (field : List Char × List Char) : List Char :=
  field.1 ++ [':', ' '] ++ field.2 ++ crlf

def version : List Char := ['H', 'T', 'T', 'P', '/', '1', '.', '1', ' ']

def render (status : List Char) (fields : List (List Char × List Char)) : List Char :=
  version ++ status ++ crlf ++ (fields.map renderField).flatten ++ crlf

/--
A line without the CR at its end.
-/
def chomp (line : List Char) : List Char :=
  if line.getLast? = some '\r' then line.dropLast else line

/--
The lines up to the first empty one; `line` is what has been read of the current one.
-/
def linesFrom (line : List Char) : List Char → Option (List (List Char))
  | [] => none
  | c :: rest =>
    if c = '\n' then
      if (chomp line).isEmpty then some [] else (linesFrom [] rest).map (chomp line :: ·)
    else
      linesFrom (line ++ [c]) rest

def parseField (line : List Char) : Option (List Char × List Char) :=
  (Text.splitOnce ':' line).map fun (name, value) => (name, value.dropWhile (· = ' '))

/--
The status and the fields of the head that `text` starts with.
-/
def parse (text : List Char) : Option (List Char × List (List Char × List Char)) :=
  match linesFrom [] text with
  | some (first :: rest) =>
    (Text.stripPrefix version first).map fun status => (status, rest.filterMap parseField)
  | _ => none

/--
A field that a line can carry.
-/
structure Plain (field : List Char × List Char) : Prop where
  name : '\n' ∉ field.1 ∧ ':' ∉ field.1
  value : '\n' ∉ field.2
  unpadded : field.2.head? ≠ some ' '

theorem chomp_crlf (line : List Char) : chomp (line ++ ['\r']) = line := by
  simp [chomp]

theorem linesFrom_append {x : List Char} (line rest : List Char) (h : '\n' ∉ x) :
    linesFrom line (x ++ rest) = linesFrom (line ++ x) rest := by
  induction x generalizing line with
  | nil => simp
  | cons c x ih =>
    rw [List.mem_cons, not_or] at h
    rw [List.cons_append, linesFrom, if_neg (Ne.symm h.1), ih _ h.2]
    simp

theorem linesFrom_line {x : List Char} (rest : List Char) (h : '\n' ∉ x) (hne : x ≠ []) :
    linesFrom [] (x ++ crlf ++ rest) = (linesFrom [] rest).map (x :: ·) := by
  rw [crlf, List.append_assoc, linesFrom_append _ _ h]
  simp only [List.nil_append, List.cons_append]
  rw [linesFrom, if_neg (by decide), linesFrom, if_pos rfl, chomp_crlf, if_neg (by simpa using hne)]

theorem parseField_field {field : List Char × List Char} (h : Plain field) :
    parseField (field.1 ++ [':', ' '] ++ field.2) = some field := by
  have hsplit := Text.splitOnce_append (' ' :: field.2) h.name.2
  rw [parseField, List.append_assoc]
  simp only [List.cons_append, List.nil_append, hsplit]
  have hdrop : field.2.dropWhile (· = ' ') = field.2 := by
    cases hvalue : field.2 with
    | nil => rfl
    | cons c value =>
      have hc := h.unpadded
      rw [hvalue, List.head?_cons, ne_eq, Option.some.injEq] at hc
      simp [hc]
  simp [hdrop]

theorem linesFrom_fields {fields : List (List Char × List Char)} (h : ∀ f ∈ fields, Plain f) :
    linesFrom [] ((fields.map renderField).flatten ++ crlf) =
      some (fields.map fun f => f.1 ++ [':', ' '] ++ f.2) := by
  induction fields with
  | nil => rfl
  | cons f fields ih =>
    rw [List.forall_mem_cons] at h
    have hline : '\n' ∉ f.1 ++ [':', ' '] ++ f.2 := by
      simp [h.1.name.1, h.1.value]
    simp only [List.map_cons, List.flatten_cons, renderField, List.append_assoc]
    have hfirst := linesFrom_line ((fields.map renderField).flatten ++ crlf) hline (by simp)
    simp only [List.append_assoc] at hfirst
    rw [hfirst, ih h.2]
    simp

/--
What is written is what a client reads.
-/
theorem parse_render {status : List Char} {fields : List (List Char × List Char)}
    (hstatus : '\n' ∉ status) (h : ∀ f ∈ fields, Plain f) :
    parse (render status fields) = some (status, fields) := by
  unfold parse render
  have hversion : '\n' ∉ version ++ status := by
    rw [List.mem_append, not_or]
    exact ⟨by decide, hstatus⟩
  have hne : version ++ status ≠ [] := List.append_ne_nil_of_left_ne_nil (by decide) status
  have hfirst := linesFrom_line ((fields.map renderField).flatten ++ crlf) hversion hne
  simp only [List.append_assoc] at hfirst ⊢
  rw [hfirst, linesFrom_fields h]
  simp only [Option.map_some, Text.stripPrefix]
  rw [if_pos (by simp), List.drop_left, Option.map_some, List.filterMap_map]
  have hfields : fields.filterMap (parseField ∘ fun f => f.1 ++ [':', ' '] ++ f.2) = fields := by
    clear hfirst
    induction fields with
    | nil => rfl
    | cons f fields ih =>
      rw [List.forall_mem_cons] at h
      rw [List.filterMap_cons, Function.comp_apply, parseField_field h.1, ih h.2]
  rw [hfields]

end HttpHead
