import Rendezvous.Architecture.Basic
import Rendezvous.Component.Source
import Rendezvous.Text.LowerCase

/-!
# The simulation harness

The harness is a test class that registers as many instances of every component type as its
cardinality says, loads the glue from the workspace and runs the engine for the configured number of
transitions.  It is named after the architecture, without blanks.
-/

namespace Rendezvous

open Text

/-- What the harness of a run depends on. -/
structure Harness where
  className : String
  /-- The workspace. -/
  path : String
  /-- The names of component types and the numbers of their instances. -/
  instances : List (String × UInt32)
  transitions : UInt64
  deriving DecidableEq, Repr, Inhabited

namespace Harness

/-- The file that holds the glue in a workspace. -/
def glueFile : String := "Glue.xml"

/-- The file that the engine writes its trace to. -/
def traceFile : String := "engineOutput.json"

/-- A name without blanks. -/
def classNameOf (name : String) : String :=
  String.ofList (stripBlanks name.toList)

/-- The harness of an architecture in a workspace.  A component type whose cardinality is not known
has one instance. -/
def ofArchitecture (s : Store) (node : Path) (a : Architecture) (config : Config) (path : String) :
    Harness where
  className := classNameOf (s.nameOf node)
  path := path
  instances := a.componentTypes.map fun t => (s.nameOf t, (a.cardinality? t).getD 1)
  transitions := config.transitions

/-- The name of the harness source. -/
def file (h : Harness) : String :=
  Component.sourceFile h.className

/-- The name of the instances of a component type. -/
def instanceName (typeName : String) : String :=
  String.ofList (lowerFirst typeName.toList)

/-- Registers the instances of a component type. -/
def registerLines (typeName : String) (count : UInt32) : List String :=
  ["        for (int i = 0; i < " ++ toString count.toNat ++ "; i++) \x7b",
    "            engine.register(new " ++ typeName ++ "(), \"" ++ instanceName typeName
      ++ "\" + i, true);",
    "        \x7d"]

/-- The lines up to the registration of instances. -/
def openingLines (h : Harness) : List String :=
  ["import java.io.File;",
    "import java.io.FileInputStream;",
    "import java.io.InputStream;",
    "import javax.xml.bind.JAXBContext;",
    "",
    "import org.javabip.api.BIPEngine;",
    "import org.javabip.api.BIPGlue;",
    "import org.javabip.engine.factory.EngineFactory;",
    "import org.javabip.glue.GlueBuilder;",
    "import org.junit.After;",
    "import org.junit.Before;",
    "import org.junit.Test;",
    "",
    "import akka.actor.ActorSystem;",
    "",
    "public class " ++ h.className ++ " \x7b",
    "",
    "    private static final String WORKSPACE = " ++ literal h.path ++ ";",
    "    private static final int REQUIRED_TRANSITIONS = " ++ toString h.transitions.toNat ++ ";",
    "",
    "    private ActorSystem system;",
    "    private EngineFactory engineFactory;",
    "",
    "    @Before",
    "    public void initialize() \x7b",
    "        system = ActorSystem.create(\"MySystem\");",
    "        engineFactory = new EngineFactory(system);",
    "    \x7d",
    "",
    "    @After",
    "    public void cleanup() \x7b",
    "        system.shutdown();",
    "    \x7d",
    "",
    "    @Test",
    "    public void runEngine() throws Exception \x7b",
    "        BIPGlue glue = createGlue(WORKSPACE + \"/" ++ glueFile ++ "\");",
    "        BIPEngine engine = engineFactory.create(\"" ++ h.className ++ "Engine\", glue);",
    "        engine.setOutput(new File(WORKSPACE, \"" ++ traceFile ++ "\"), REQUIRED_TRANSITIONS);",
    ""]

/-- The lines after the registration of instances. -/
def closingLines : List String :=
  ["",
    "        engine.specifyGlue(glue);",
    "        engine.start();",
    "        engine.execute();",
    "        while (engine.getTransitionCount() < REQUIRED_TRANSITIONS) \x7b",
    "            Thread.sleep(100);",
    "        \x7d",
    "        engine.stop();",
    "        engineFactory.destroy(engine);",
    "    \x7d",
    "",
    "    private BIPGlue createGlue(String glueFile) throws Exception \x7b",
    "        try (InputStream stream = new FileInputStream(glueFile)) \x7b",
    "            return (BIPGlue) JAXBContext.newInstance(GlueBuilder.GLUE_CLASSES)",
    "                    .createUnmarshaller().unmarshal(stream);",
    "        \x7d",
    "    \x7d",
    "\x7d"]

/-- The harness source. -/
def source (h : Harness) : String :=
  Source.render (h.openingLines ++ h.instances.flatMap (fun e => registerLines e.1 e.2)
    ++ closingLines)

end Harness

end Rendezvous
