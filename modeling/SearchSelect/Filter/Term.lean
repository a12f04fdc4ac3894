/-! Values in the syntax of filter queries: bare terms, quoted phrases and wildcard patterns. A
backslash makes the next character stand for itself. -/

namespace SearchSelect.Filter

/-- Characters that mean something in a filter query. -/
def specials : List Char :=
  ['+', '-', '&', '|', '!', '(', ')', '\x7b', '\x7d', '[', ']', '^', '\x22', '~', '*', '?', ':',
    '\x5c', '/', ' ']

def isSpecial (c : Char) : Bool :=
  specials.contains c

def escaped (s : List Char) : List Char :=
  s.flatMap fun c => if isSpecial c then ['\x5c', c] else [c]

def phraseBody (s : List Char) : List Char :=
  s.flatMap fun c => if c = '\x5c' || c = '\x22' then ['\x5c', c] else [c]

def phrase (s : List Char) : List Char :=
  '\x22' :: (phraseBody s ++ ['\x22'])

/-- `%` stands for any run of characters and `_` for one. -/
def wildcard (pattern : List Char) : List Char :=
  pattern.flatMap fun c =>
    if c = '%' then ['*']
    else if c = '_' then ['?']
    else if isSpecial c then ['\x5c', c]
    else [c]

end SearchSelect.Filter
