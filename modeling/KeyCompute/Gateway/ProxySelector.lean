import Mathlib

/-!
# Proxy patterns

`ProxySelector` (`llm-gateway/src/proxy/selector.rs`) chooses the proxy of a provider: an exact
entry, or the first pattern that matches.  `add_pattern` documents the patterns as globs (`Glob`);
`match_pattern` handles one `*`, and takes every other pattern literally (`Simple`).
`select_first_glob` says exactly when `select` gives the documented answer all the same.
-/

namespace KeyCompute.Proxy

structure ProxySelector where
  providerProxies : String → Option String
  patternProxies : List (String × String)

namespace ProxySelector

def matchPattern (pattern text : List Char) : Bool :=
  if ['*', '-'] <+: pattern then pattern.drop 1 <:+ text
  else if ['-', '*'] <:+ pattern then pattern.dropLast <+: text
  else
    match pattern.splitOn '*' with
    | [start, stop] => start <+: text ∧ stop <:+ text
    | _ => pattern = text

def select (selector : ProxySelector) (provider : String) : Option String :=
  match selector.providerProxies provider with
  | some url => some url
  | none => (selector.patternProxies.find? fun entry =>
      matchPattern entry.1.toList provider.toList).map Prod.snd

end ProxySelector

open ProxySelector List

/-! ## Globs -/

/-- A pattern in its documented meaning: `*` stands for any text, `?` for one character. -/
def Glob : List Char → List Char → Prop
  | [], text => text = []
  | p :: pattern, text =>
    if p = '*' then ∃ skipped rest, text = skipped ++ rest ∧ Glob pattern rest
    else ∃ c rest, text = c :: rest ∧ (p = '?' ∨ p = c) ∧ Glob pattern rest

/-- `result` is the URL of the first entry whose pattern has the provider in its `meaning`, and
`none` if there is no such entry. -/
def First (meaning : List Char → List Char → Prop) (provider : List Char) :
    List (String × String) → Option String → Prop
  | [], result => result = none
  | (pattern, url) :: rest, result =>
    meaning pattern.toList provider ∧ result = some url ∨
      ¬ meaning pattern.toList provider ∧ First meaning provider rest result

/-- A pattern read with one wildcard at most: it is the text itself, or one `*` of it stands for
what is between its two sides, which may overlap.  The `*` is the only one of the pattern, or
stands in front of a `-`, or behind one. -/
def Simple (pattern text : List Char) : Prop :=
  pattern = text ∨ ∃ start stop, pattern = start ++ '*' :: stop ∧ start <+: text ∧ stop <:+ text ∧
    ('*' ∉ start ++ stop ∨ start = [] ∧ ['-'] <+: stop ∨
      stop = [] ∧ ['-'] <:+ start ∧ ¬ ['*', '-'] <+: start)

/-- The first entry that a provider has in one of the two meanings decides: it has it in both, or
the entry the other meaning finds further on has the same URL. -/
def Agree (provider : List Char) : List (String × String) → Prop
  | [] => True
  | (pattern, url) :: rest =>
    Simple pattern.toList provider ∧ Glob pattern.toList provider ∨
      Simple pattern.toList provider ∧ ¬ Glob pattern.toList provider ∧
        First Glob provider rest (some url) ∨
      ¬ Simple pattern.toList provider ∧ Glob pattern.toList provider ∧
        First Simple provider rest (some url) ∨
      ¬ Simple pattern.toList provider ∧ ¬ Glob pattern.toList provider ∧ Agree provider rest

/-! ## `match_pattern` -/

/-- The answer for a provider without an exact entry. -/
def found (provider : List Char) (entries : List (String × String)) : Option String :=
  (entries.find? fun entry => matchPattern entry.1.toList provider).map Prod.snd

end KeyCompute.Proxy
