import NawaraCore.Lib.JsonTree

/-!
# The strict reader of a caller policy

`parseJsonStrict`: the index of the source is what is left of the text.
-/

namespace NawaraCore.CallerPolicy

open Json (Numerals skipSpace)

/-- What is thrown: a fixed rule, or `JSON.parse`'s own error on a token. An unfinished call has run out of fuel and thrown nothing. -/
inductive Failure
  | rule (message : String)
  | syntaxError
  | unfinished

def invalid : Failure := .rule "invalid JSON"

/-! ## Tokens -/

/-- `ws`, and the one character that must be there. -/
def expect (c : Nat) (text : List Nat) : Except Failure (List Nat) :=
  match skipSpace text with
  | [] => .error invalid
  | d :: rest => if d = c then .ok rest else .error invalid

/-- The loop of `str`, after the opening quote; the slice ends before the closing one. -/
def scanString : List Nat → Option (List Nat × List Nat)
  | [] => none
  | [c] => if c = 34 then some ([], []) else none
  | c :: d :: rest =>
    if c = 92 then (scanString rest).map fun (body, rest) => (c :: d :: body, rest)
    else if c = 34 then some ([], d :: rest)
    else if c < 32 then none
    else (scanString (d :: rest)).map fun (body, rest) => (c :: body, rest)

def matchInteger : List Nat → Option (List Nat × List Nat)
  | [] => none
  | c :: text =>
    if c = 48 then some ([48], text)
    else if isDigit c then some (c :: text.takeWhile isDigit, text.dropWhile isDigit)
    else none

def matchFraction : List Nat → List Nat × List Nat
  | [] => ([], [])
  | c :: text =>
    if c = 46 ∧ text.takeWhile isDigit ≠ [] then (c :: text.takeWhile isDigit, text.dropWhile isDigit) else ([], c :: text)

def matchSign : List Nat → List Nat × List Nat
  | 43 :: text => ([43], text)
  | 45 :: text => ([45], text)
  | text => ([], text)

def matchExponent : List Nat → List Nat × List Nat
  | [] => ([], [])
  | c :: text =>
    let digits := (matchSign text).2
    if (c = 101 ∨ c = 69) ∧ digits.takeWhile isDigit ≠ [] then
      (c :: ((matchSign text).1 ++ digits.takeWhile isDigit), digits.dropWhile isDigit)
    else ([], c :: text)

def matchMinus : List Nat → List Nat × List Nat
  | 45 :: text => ([45], text)
  | text => ([], text)

def matchNumber (text : List Nat) : Option (List Nat × List Nat) :=
  (matchInteger (matchMinus text).2).map fun (whole, rest) =>
    ((matchMinus text).1 ++ (whole ++ ((matchFraction rest).1 ++ (matchExponent (matchFraction rest).2).1)), (matchExponent (matchFraction rest).2).2)

def matchToken (text : List Nat) : Option (List Nat × List Nat) :=
  match matchNumber text with
  | some m => some m
  | none => [codes "true", codes "false", codes "null"].findSome? fun word => if word <+: text then some (word, text.drop word.length) else none

section
variable (N : Numerals)

def str (text : List Nat) : Except Failure (List Nat × List Nat) :=
  match scanString text with
  | none => .error invalid
  | some (body, rest) => match Json.parse N (34 :: (body ++ [34])) with
    | some (.str s) => .ok (s, rest)
    | _ => .error .syntaxError

def scalar : List Nat → Except Failure (Json × List Nat)
  | [] => .error invalid
  | c :: text =>
    if c = 34 then (str N text).map fun (s, rest) => (.str s, rest)
    else match matchToken (c :: text) with
      | none => .error invalid
      | some (token, rest) => match Json.parse N token with
        | some j => .ok (j, rest)
        | none => .error .syntaxError

mutual
def value : Nat → Nat → List Nat → Except Failure (Json × List Nat)
  | 0, _, _ => .error .unfinished
  | fuel + 1, depth, text =>
    if 32 < depth then .error (.rule "JSON nested too deeply")
    else match skipSpace text with
      | [] => .error invalid
      | c :: rest =>
        if c = 123 then
          if (skipSpace rest).head? = some 125 then .ok (.obj [], (skipSpace rest).tail) else members fuel depth [] [] rest
        else if c = 91 then
          if (skipSpace rest).head? = some 93 then .ok (.arr [], (skipSpace rest).tail) else items fuel depth [] rest
        else scalar N (c :: rest)

/-- The loop over the members of an object, with the keys `seen`. -/
def members : Nat → Nat → List (List Nat) → Members → List Nat → Except Failure (Json × List Nat)
  | 0, _, _, _, _ => .error .unfinished
  | fuel + 1, depth, seen, obj, text => do
    let text ← expect 34 text
    let (key, text) ← str N text
    if key ∈ seen then .error (.rule "duplicate key")
    else do
      let text ← expect 58 text
      let (v, text) ← value fuel (depth + 1) text
      match skipSpace text with
      | [] => .error invalid
      | c :: rest =>
        if c = 44 then members fuel depth (key :: seen) (obj ++ [(key, v)]) rest
        else if c = 125 then .ok (.obj (obj ++ [(key, v)]), rest)
        else .error invalid

def items : Nat → Nat → List Json → List Nat → Except Failure (Json × List Nat)
  | 0, _, _, _ => .error .unfinished
  | fuel + 1, depth, arr, text => do
    let (v, text) ← value fuel (depth + 1) text
    match skipSpace text with
    | [] => .error invalid
    | c :: rest =>
      if c = 44 then items fuel depth (arr ++ [v]) rest
      else if c = 93 then .ok (.arr (arr ++ [v]), rest)
      else .error invalid
end

def parseWithin (fuel : Nat) (text : List Nat) : Except Failure Json := do
  let (v, rest) ← value N fuel 0 text
  if skipSpace rest = [] then .ok v else .error invalid

def parseJsonStrict (text : List Nat) : Except Failure Json := parseWithin N (2 * text.length + 1) text

end

end NawaraCore.CallerPolicy
