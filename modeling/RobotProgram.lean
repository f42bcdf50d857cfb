import RobotProgram.Main
import RobotProgram.Proofs.Json.Same
import RobotProgram.Proofs.Program.Reload
import RobotProgram.Proofs.Program.Loading
import RobotProgram.Proofs.Editor.Modes
import RobotProgram.Proofs.Editor.Freeze
import RobotProgram.Proofs.Editor.Depths
import RobotProgram.Proofs.Editor.Lighting
import RobotProgram.Proofs.Editor.Rejection
import RobotProgram.Proofs.Editor.Presentation
import RobotProgram.Proofs.Roster.Refinement
import RobotProgram.Proofs.Program.Handles
import RobotProgram.Proofs.Program.SaveFile
import RobotProgram.Proofs.Projector.Polling
import RobotProgram.Proofs.Program.Labels
import RobotProgram.Proofs.Editor.Dialogs
import RobotProgram.Proofs.Simulation.Replay
import RobotProgram.Proofs.Json.Nesting
import RobotProgram.Proofs.Routine.Pairing
import RobotProgram.Proofs.Projector.Frame
import RobotProgram.Proofs.Program.Replacement
import RobotProgram.Proofs.Routine.Deletion
import RobotProgram.Proofs.Routine.Locality
import RobotProgram.Proofs.Editor.Confirmation
import RobotProgram.Proofs.Program.UnknownKinds
import RobotProgram.Proofs.Routine.Correspondence
import RobotProgram.Proofs.Editor.Confinement
import RobotProgram.Proofs.Listing.Lines
import RobotProgram.Proofs.Listing.Padding
import RobotProgram.Proofs.Program.RecordLayout
