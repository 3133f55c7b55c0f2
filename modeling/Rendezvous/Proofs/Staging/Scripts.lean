import Mathlib.Data.List.Basic
import Rendezvous.Staging.Script

/-!
# Scripts as the shell reads them

A script is read as comments and commands, and a command as words (`Shell.items?`).  Whatever stands
between the quotes of a quoted text, the text is read as one word (`Shell.reads_quote`): neither quotes,
blanks and ends of lines nor the characters that a shell acts on end the word or the command.  So
every script is read as the commands that were meant, with every path and name as a word of its own
(`scripts_pass_literal_words`).
-/

namespace Rendezvous

namespace Shell

/-! ## Reading scripts -/

/-- What a script is made of. -/
inductive Item where
  /-- What follows a number sign on its line. -/
  | comment (text : String)
  | command (words : List String)
  deriving DecidableEq, Repr

/-- What the reader is in the middle of.  Characters are held last one first. -/
inductive Mode where
  /-- Outside of quotes and comments, with the characters of a word that has not ended. -/
  | outside (word : Option (List Char))
  /-- Inside single quotes. -/
  | quotes (chars : List Char)
  /-- After a backslash outside of quotes. -/
  | escape (chars : List Char)
  | comment (chars : List Char)
  deriving DecidableEq, Repr

/-- What has been read: the items, and the words of the command that has not ended. -/
structure State where
  items : List Item
  words : List String
  mode : Mode
  deriving DecidableEq, Repr

/-- A text from its characters, last one first. -/
def textOf (chars : List Char) : String :=
  String.ofList chars.reverse

def isBlank (c : Char) : Bool :=
  c == ' ' || c == '\t'

/-- Whether a character stands for itself outside of quotes, wherever it is in a word. -/
def isPlain (c : Char) : Bool :=
  c.isAlphanum || c == '-' || c == '_' || c == '.' || c == '/' || c == ':'

namespace State

/-- Ends a word, if there is one. -/
def endWord (s : State) (word : Option (List Char)) : State :=
  ⟨s.items, s.words ++ (word.map textOf).toList, .outside none⟩

/-- Ends a command, if it has words. -/
def endCommand (s : State) : State :=
  ⟨s.items ++ if s.words.isEmpty then [] else [.command s.words], [], .outside none⟩

/-- Ends a comment. -/
def endComment (s : State) (chars : List Char) : State :=
  ⟨s.items ++ [.comment (textOf chars)], [], .outside none⟩

/-- Takes a character outside of quotes and comments.  One that a shell acts on is refused. -/
def stepOutside (s : State) (word : Option (List Char)) (c : Char) : Option State :=
  if isBlank c then some (s.endWord word)
  else if c = '\n' then some (s.endWord word).endCommand
  else if c = '\'' then some { s with mode := .quotes (word.getD []) }
  else if c = '\\' then some { s with mode := .escape (word.getD []) }
  else if c = '#' ∧ word = none then some { s.endCommand with mode := .comment [] }
  else if isPlain c then some { s with mode := .outside (some (c :: word.getD [])) }
  else none

/-- Takes a character.  Inside quotes only a quote means anything; a backslash outside of them stands
before any character but the end of a line. -/
def step (s : State) (c : Char) : Option State :=
  match s.mode with
  | .outside word => s.stepOutside word c
  | .quotes chars =>
    some { s with mode := if c = '\'' then .outside (some chars) else .quotes (c :: chars) }
  | .escape chars => if c = '\n' then none else some { s with mode := .outside (some (c :: chars)) }
  | .comment chars =>
    some (if c = '\n' then s.endComment chars else { s with mode := .comment (c :: chars) })

/-- Takes characters one after the other. -/
def run (s : State) : List Char → Option State
  | [] => some s
  | c :: rest => (s.step c).bind fun s' => s'.run rest

/-- The items at the end of a script. -/
def finish? (s : State) : Option (List Item) :=
  match s.mode with
  | .outside word => some (s.endWord word).endCommand.items
  | .comment chars => some (s.endComment chars).items
  | .quotes _ | .escape _ => none

end State

/-- The comments and commands of a script, in order. -/
def items? (script : String) : Option (List Item) :=
  (State.run ⟨[], [], .outside none⟩ script.toList).bind State.finish?

/-! ## Pieces of scripts -/

/-- A piece of a script leads the reader from one state to another. -/
def Reads (text : String) (s s' : State) : Prop :=
  s.run text.toList = some s'

section
variable {s s' s'' : State} {text text' : String} {is : List Item} {ws : List String}

theorem run_append {cs cs' : List Char} (h : s.run cs = some s') : s.run (cs ++ cs') = s'.run cs' := by
  induction cs generalizing s with
  | nil =>
    cases h
    rfl
  | cons c cs ih =>
    obtain ⟨s₁, hstep, hrest⟩ := Option.bind_eq_some_iff.1 h
    rw [List.cons_append, State.run, hstep, Option.bind_some, ih hrest]

theorem reads_empty : Reads "" s s :=
  rfl

theorem Reads.append (h : Reads text s s') (h' : Reads text' s' s'') : Reads (text ++ text') s s'' := by
  rw [Reads, String.toList_append, run_append h]
  exact h'

theorem textOf_reverse (text : String) : textOf text.toList.reverse = text := by
  rw [textOf, List.reverse_reverse, String.ofList_toList]

/-- However a character is written inside quotes, it is gathered as itself. -/
theorem run_quoteChar (c : Char) (chars rest : List Char) :
    State.run ⟨is, ws, .quotes chars⟩ (Script.quoteChar c ++ rest) =
      State.run ⟨is, ws, .quotes (c :: chars)⟩ rest := by
  by_cases hquote : c = '\''
  · rw [hquote]
    exact run_append rfl
  · have hstep : State.step ⟨is, ws, .quotes chars⟩ c = some ⟨is, ws, .quotes (c :: chars)⟩ := by
      simp [State.step, hquote]
    rw [Script.quoteChar, if_neg hquote, List.singleton_append, State.run, hstep, Option.bind_some]

/-- **A quoted text is one word**, whatever its characters are. -/
theorem reads_quote (text : String) : Reads (Script.quote text) ⟨is, ws, .outside none⟩
    ⟨is, ws, .outside (some text.toList.reverse)⟩ := by
  have hchars : ∀ cs chars : List Char,
      State.run ⟨is, ws, .quotes chars⟩ (cs.flatMap Script.quoteChar ++ ['\'']) =
        some ⟨is, ws, .outside (some (cs.reverse ++ chars))⟩ := by
    intro cs
    induction cs with
    | nil => exact fun _ => rfl
    | cons c cs ih =>
      intro chars
      rw [List.flatMap_cons, List.append_assoc, run_quoteChar, ih, List.reverse_cons,
        List.append_assoc]
      rfl
  have hopen : State.step ⟨is, ws, .outside none⟩ '\'' = some ⟨is, ws, .quotes []⟩ := rfl
  rw [Reads, Script.quote, String.toList_ofList, State.run, hopen, Option.bind_some, hchars,
    List.append_nil]

theorem Reads.quote (h : Reads text s ⟨is, ws, .outside none⟩) (word : String) :
    Reads (text ++ Script.quote word) s ⟨is, ws, .outside (some word.toList.reverse)⟩ :=
  h.append (reads_quote word)

/-- A blank after a quoted text ends the word. -/
theorem Reads.quote_blank (h : Reads text s ⟨is, ws, .outside none⟩) (word : String) :
    Reads (text ++ Script.quote word ++ " ") s ⟨is, ws ++ [word], .outside none⟩ := by
  have hblank : Reads " " ⟨is, ws, .outside (some word.toList.reverse)⟩
      ⟨is, ws ++ [textOf word.toList.reverse], .outside none⟩ := rfl
  rw [textOf_reverse] at hblank
  exact (h.quote word).append hblank

/-- The end of a script after a quoted text ends the word and the command. -/
theorem Reads.items?_eq {script word : String} (h : Reads script ⟨[], [], .outside none⟩
    ⟨is, ws, .outside (some word.toList.reverse)⟩) :
    items? script = some (is ++ [.command (ws ++ [word])]) := by
  have hcommand : (ws ++ [textOf word.toList.reverse]).isEmpty = false := by simp
  have hfinish : State.finish? ⟨is, ws, .outside (some word.toList.reverse)⟩ =
      some (is ++ [.command (ws ++ [textOf word.toList.reverse])]) := by
    show some (is ++ if (ws ++ [textOf word.toList.reverse]).isEmpty then [] else _) = _
    rw [hcommand]
    rfl
  rw [textOf_reverse] at hfinish
  rw [items?, h, Option.bind_some, hfinish]

end

example : items? ("cat " ++ Script.quote "it's\n;$x" ++ "\nls") =
    some [.command ["cat", "it's\n;$x"], .command ["ls"]] := by
  decide

end Shell

/-! ## The scripts of the toolchain -/

namespace Script

open Shell

/-- The command that compiles a file. -/
def compilation (classPath file : String) : Item :=
  .command ["javac", "-cp", classPath, file]

variable {home : String} {w : Workspace} {is : List Item}

theorem reads_compiler :
    Reads "javac -cp " ⟨is, [], .outside none⟩ ⟨is, ["javac", "-cp"], .outside none⟩ :=
  rfl

theorem reads_compileComponent (file : String) :
    Reads (compileComponent home w file) ⟨is, [], .outside none⟩
      ⟨is ++ [compilation (libraries home) (w.root ++ "/" ++ file)], [], .outside none⟩ := by
  have hend : Reads "\n\n"
      ⟨is, ["javac", "-cp", libraries home], .outside (some (w.root ++ "/" ++ file).toList.reverse)⟩
      ⟨is ++ [compilation (libraries home) (textOf (w.root ++ "/" ++ file).toList.reverse)] ++ [], [],
        .outside none⟩ := rfl
  rw [textOf_reverse, List.append_nil] at hend
  exact ((reads_compiler.quote_blank (libraries home)).quote (w.root ++ "/" ++ file)).append hend

/-- The components are compiled in order. -/
theorem reads_components (home : String) (w : Workspace) (components : List String) :
    Reads (String.join (components.map (compileComponent home w))) ⟨is, [], .outside none⟩
      ⟨is ++ components.map fun file => compilation (libraries home) (w.root ++ "/" ++ file), [],
        .outside none⟩ := by
  induction components generalizing is with
  | nil =>
    rw [List.map_nil, List.map_nil, List.append_nil]
    exact reads_empty
  | cons file components ih =>
    rw [List.map_cons, List.map_cons, String.join_cons, List.append_cons]
    exact (reads_compileComponent file).append ih

end Script

/-- **Scripts pass every path as one literal word.**  After its first line, which is a comment, the
compile script is read as one command for each component, in order, and then one for the harness; the
other script is read as one command.  Homes, roots and names are the words themselves, whatever text
they are. -/
theorem scripts_pass_literal_words (home : String) (w : Workspace) (components : List String)
    (harness className : String) :
    let libraries := home ++ "/engineLibraries/*"
    let classPath := w.root ++ "/:" ++ libraries
    Shell.items? (Script.compile home w components harness) =
        some (.comment "!/bin/bash "
          :: (components.map fun file => .command ["javac", "-cp", libraries, w.root ++ "/" ++ file])
          ++ [.command ["javac", "-cp", classPath, w.root ++ "/" ++ harness]]) ∧
      Shell.items? (Script.simulate home w className) =
        some [.command ["java", "-cp", classPath, "org.junit.runner.JUnitCore", className]] := by
  intro libraries classPath
  constructor
  · have hcomment : Shell.Reads "#!/bin/bash \n\n" ⟨[], [], .outside none⟩
        ⟨[.comment "!/bin/bash "], [], .outside none⟩ := rfl
    have hcomponents := hcomment.append (Script.reads_components home w components)
    exact (((hcomponents.append Script.reads_compiler).quote_blank classPath).quote _).items?_eq
  · have hname : Shell.Reads "java -cp " ⟨[], [], .outside none⟩
        ⟨[], ["java", "-cp"], .outside none⟩ := rfl
    have hrunner : Shell.Reads " org.junit.runner.JUnitCore "
        ⟨[], ["java", "-cp"], .outside (some classPath.toList.reverse)⟩
        ⟨[], ["java", "-cp", Shell.textOf classPath.toList.reverse, "org.junit.runner.JUnitCore"],
          .outside none⟩ := rfl
    rw [Shell.textOf_reverse] at hrunner
    exact (((hname.quote classPath).append hrunner).quote className).items?_eq

end Rendezvous
