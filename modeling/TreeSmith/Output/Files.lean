import TreeSmith.Disk.Path
import TreeSmith.Generation.Pass

/-!
# TreeSmith.Output.Files

**The files of an output**: where each unit goes, and what its file holds. Node types, the node
interface and the support classes go to one directory and package, visitors to another; each
side imports the package of the other, unless they share it.
-/

namespace TreeSmith

/-- The line that every file starts with. -/
def fileNotice : String := "// Generated by treegen, do not edit by hand."

/-- The text of a file in `package` whose code refers to the package `other`. -/
def fileText (unit : CompilationUnit) (package other : Option String) : String :=
  fileNotice ++ "\n\n" ++
    (match package with
    | some package => "package " ++ package ++ ";\n\n"
    | none => "") ++
    (match other with
    | some imported => if package = other then "" else "import " ++ imported ++ ".*;\n\n"
    | none => "") ++
    unit.text

/-- A file to be written. -/
structure OutputFile where
  path : String
  contents : String
  deriving DecidableEq, Repr

/-- The path of a unit's file in a directory. -/
def unitPath (directory : String) (unit : CompilationUnit) : String :=
  joinPath directory (unit.name ++ ".java")

/-- The units that go to the directory of the node types, in order. -/
def Output.nodeUnits (output : Output) : List CompilationUnit :=
  output.nodeTypes ++ output.nodeInterface :: output.supportClasses

/-- The files of an output, in the order in which they are written. -/
def outputFiles (output : Output) (config : Config) (nodesDir visitorDir : String) :
    List OutputFile :=
  output.nodeUnits.map (fun unit =>
      ⟨unitPath nodesDir unit, fileText unit config.nodesPackage config.visitorPackage⟩) ++
    output.visitors.map fun unit =>
      ⟨unitPath visitorDir unit, fileText unit config.visitorPackage config.nodesPackage⟩

end TreeSmith
