import Rendezvous.Staging.Workspace

/-!
# Scripts

The external toolchain compiles and simulates with two shell scripts.  Every path and class name is
quoted, so that the shell takes it as one literal word: the text stands between single quotes, and a
single quote inside is written by leaving the quotes for an escaped one.
-/

namespace Rendezvous.Script

/-- How a character is written inside single quotes. -/
def quoteChar (c : Char) : List Char :=
  if c = '\'' then ['\'', '\\', '\'', '\''] else [c]

/-- A text as one literal word. -/
def quote (text : String) : String :=
  String.ofList ('\'' :: (text.toList.flatMap quoteChar ++ ['\'']))

/-- The libraries of the engine below the toolchain's home. -/
def libraries (home : String) : String :=
  home ++ "/engineLibraries/*"

/-- The classes of a workspace together with the libraries. -/
def classPath (home : String) (w : Workspace) : String :=
  w.root ++ "/:" ++ libraries home

/-- Compiles one component source. -/
def compileComponent (home : String) (w : Workspace) (file : String) : String :=
  "javac -cp " ++ quote (libraries home) ++ " " ++ quote (w.root ++ "/" ++ file) ++ "\n\n"

/-- Compiles every component source, then the harness. -/
def compile (home : String) (w : Workspace) (components : List String) (harness : String) : String :=
  "#!/bin/bash \n\n" ++ String.join (components.map (compileComponent home w))
    ++ "javac -cp " ++ quote (classPath home w) ++ " " ++ quote (w.root ++ "/" ++ harness)

/-- Runs the compiled harness. -/
def simulate (home : String) (w : Workspace) (className : String) : String :=
  "java -cp " ++ quote (classPath home w) ++ " org.junit.runner.JUnitCore " ++ quote className

end Rendezvous.Script
