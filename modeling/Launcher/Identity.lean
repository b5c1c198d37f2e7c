/-! The name and the version under which the launcher presents itself. -/
namespace Launcher

def launcherName : String := "launchcraft"

def launcherVersion : String := "0.3.0"

def userAgent : String := launcherName ++ "/" ++ launcherVersion

end Launcher
