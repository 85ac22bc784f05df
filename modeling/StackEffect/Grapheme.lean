import StackEffect.Grapheme.Role

/-! The cut of a text into graphemes, the characters that readers see. -/
namespace StackEffect
namespace GraphemeRole

/-- Whether a consonant, some marks and among them a linker come last. Roles come last first. -/
def awaitConsonant (roles : List GraphemeRole) : Bool :=
  let isTie (role : GraphemeRole) := role = extending || role = linker || role = joiner
  (roles.takeWhile isTie).contains linker && (roles.dropWhile isTie).head? = some consonant

/-- Whether a pictograph and perhaps some marks come last. -/
def endInPictograph (roles : List GraphemeRole) : Bool :=
  let isMark (role : GraphemeRole) := role = extending || role = linker || role = nonJoiner
  (roles.dropWhile isMark).head? = some pictograph

/-- Whether an odd number of regional letters come last: they go in pairs. -/
def endUnpaired (roles : List GraphemeRole) : Bool :=
  (roles.takeWhile (· = regional)).length % 2 = 1

def isBreak : GraphemeRole → Bool
  | carriageReturn | lineFeed | control => true
  | _ => false

/-- Whether a character goes on with the grapheme in front of it, whose roles come last first. -/
def joins (role : GraphemeRole) : List GraphemeRole → Bool
  | [] => false
  | last :: roles =>
    if last = carriageReturn && role = lineFeed then true
    else if last.isBreak || role.isBreak then false
    else if last = prepended then true
    else match role with
      | extending | linker | nonJoiner | joiner | spacing => true
      | leading | openSyllable | closedSyllable => last = leading
      | vowel => last = leading || last = openSyllable || last = vowel
      | trailing =>
        last = openSyllable || last = vowel || last = closedSyllable || last = trailing
      | consonant => awaitConsonant (last :: roles)
      | pictograph => last = joiner && endInPictograph roles
      | regional => endUnpaired (last :: roles)
      | _ => false

end GraphemeRole

def graphemesFrom (read : List Char) (roles : List GraphemeRole) : List Char → List (List Char)
  | [] => [read.reverse]
  | c :: rest =>
    let role := GraphemeRole.ofChar c
    if role.joins roles then graphemesFrom (c :: read) (role :: roles) rest
    else read.reverse :: graphemesFrom [c] [role] rest

def graphemes : List Char → List (List Char)
  | [] => []
  | c :: rest => graphemesFrom [c] [GraphemeRole.ofChar c] rest

theorem flatten_graphemesFrom (read : List Char) (roles : List GraphemeRole) (cs : List Char) :
    (graphemesFrom read roles cs).flatten = read.reverse ++ cs := by
  induction cs generalizing read roles with
  | nil => simp [graphemesFrom]
  | cons c rest ih =>
    rw [graphemesFrom]
    split <;> simp [ih]

@[simp] theorem flatten_graphemes (cs : List Char) : (graphemes cs).flatten = cs := by
  cases cs with
  | nil => rfl
  | cons c rest => simp [graphemes, flatten_graphemesFrom]

end StackEffect
