import FrcRobot.AngleControl
import FrcRobot.AngleDistance
import FrcRobot.AngleTargetLoop
import FrcRobot.AngleTargetTick
import FrcRobot.ArcadeDrive
import FrcRobot.ArcadeDrivePipeline
import FrcRobot.ArcadeDriveSnapshot
import FrcRobot.ArcadePowers
import FrcRobot.Attempt
import FrcRobot.AutoConfig
import FrcRobot.AutoConfigFiring
import FrcRobot.AutonomousSequences
import FrcRobot.Bearing
import FrcRobot.Clients
import FrcRobot.CmdProcessor
import FrcRobot.CmdProcessorIsolation
import FrcRobot.CmdTimerDestroyed
import FrcRobot.CmdTimerFailed
import FrcRobot.CmdTimerIds
import FrcRobot.CmdTimerMultiplex
import FrcRobot.CmdTimerMultiplexDropped
import FrcRobot.CmdTimerMultiplexMap
import FrcRobot.CmdTimerOneShot
import FrcRobot.CmdTimerOwner
import FrcRobot.CmdTimerRepeating
import FrcRobot.CmdTimerWin32
import FrcRobot.CmdTimerWindows
import FrcRobot.CmdTimerWrappers
import FrcRobot.CockArm
import FrcRobot.CockArmCancel
import FrcRobot.CockArmLoop
import FrcRobot.CockArmTimer
import FrcRobot.CockArmWin32
import FrcRobot.DeferredQueue
import FrcRobot.FirstUnused
import FrcRobot.Global
import FrcRobot.Interleaving
import FrcRobot.IntervalClock
import FrcRobot.JoystickMock
import FrcRobot.LastWrite
import FrcRobot.LinearAngleTarget
import FrcRobot.LinearSpeedTarget
import FrcRobot.ListenerInvocation
import FrcRobot.ListenerManager
import FrcRobot.ListenerManagerDispatch
import FrcRobot.ListenerRemoval
import FrcRobot.Literals
import FrcRobot.MagneticPotEncoder
import FrcRobot.MotorControlStop
import FrcRobot.MotorLink
import FrcRobot.MotorLinkClients
import FrcRobot.MotorLinkOrder
import FrcRobot.MotorLinkOutput
import FrcRobot.MotorLinkPointers
import FrcRobot.MotorLinkSpeeds
import FrcRobot.MotorLinkStages
import FrcRobot.MotorLinkTimers
import FrcRobot.NormalizeAngle
import FrcRobot.Piston
import FrcRobot.PollingScript
import FrcRobot.Robot
import FrcRobot.RobotComponents
import FrcRobot.RobotDrive
import FrcRobot.RobotInvariant
import FrcRobot.RobotMath
import FrcRobot.RobotRefines
import FrcRobot.RobotRuns
import FrcRobot.RobotSettles
import FrcRobot.RobotSteps
import FrcRobot.RobotTeleop
import FrcRobot.RobotTemplate
import FrcRobot.RobotWiring
import FrcRobot.SignalEdges
import FrcRobot.SpeedTargetDivisors
import FrcRobot.SpeedTargetLoop
import FrcRobot.SpeedTargetRefresh
import FrcRobot.SpeedTargetRun
import FrcRobot.StagedServer
import FrcRobot.SwerveDrive
import FrcRobot.SwerveMotion
import FrcRobot.SwerveOptimize
import FrcRobot.SwerveScaling
import FrcRobot.SwerveSteering
import FrcRobot.SwerveTargets
import FrcRobot.TeleopControl
import FrcRobot.TeleopMechanisms
import FrcRobot.Turn
